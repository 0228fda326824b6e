import CanonicalMarkdown.Text.Bytes

namespace CanonicalMarkdown.Document

/-! A segment is a range of byte offsets into the source a document was read from. -/

abbrev Source := Array UInt8

structure Segment where
  start : Nat
  stop : Nat
  deriving DecidableEq, Repr

namespace Segment

def length (segment : Segment) : Nat := segment.stop - segment.start

def isEmpty (segment : Segment) : Bool := segment.stop ≤ segment.start

/-- The bytes of the range. A range that ends before it starts or after the source has none. -/
def value (source : Source) (segment : Segment) : Bytes :=
  if segment.start ≤ segment.stop ∧ segment.stop ≤ source.size then
    (source.extract segment.start segment.stop).toList
  else
    []

/-- The bytes of several ranges one after the other. -/
def join (source : Source) (segments : List Segment) : Bytes :=
  segments.flatMap (value source)

end Segment

end CanonicalMarkdown.Document
