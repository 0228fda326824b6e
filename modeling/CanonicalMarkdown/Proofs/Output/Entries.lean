import CanonicalMarkdown.Proofs.Output.Indent

namespace CanonicalMarkdown.Output.Layer

/-! A layer over entries that stand for bytes. It goes by how an entry looks, and what it adds is
plain. -/

section

variable {α : Type} (look : α → UInt8) (plain : UInt8 → α)

def markedBy (marker : Bytes) : (atLineStart : Bool) → List α → List α
  | _, [] => []
  | atLineStart, entry :: rest =>
      (if atLineStart then (lead marker [look entry]).map plain else []) ++
        entry :: markedBy marker (look entry == Bytes.newline) rest

def emitBy : Layer → List α → List α
  | .margin marker atLineStart, entries => markedBy look plain marker atLineStart entries
  | .trim byte pending, entries =>
      (List.replicate pending (plain byte) ++ entries).rdropWhile (look · == byte)

end

/-- The byte that makes a difference to a layer. -/
def watched : Layer → UInt8
  | .margin _ _ => Bytes.newline
  | .trim byte _ => byte

/-- How entries are written out. One that is not the byte that it looks like has no part in what a
layer watches for. -/
structure Spells {α : Type} (look : α → UInt8) (plain : UInt8 → α) (spell : α → Bytes)
    (watched : UInt8) : Prop where
  spell_plain : ∀ byte, spell (plain byte) = [byte]
  spell_eq : ∀ entry, spell entry = [look entry] ∨
    spell entry ≠ [] ∧ watched ∉ spell entry ∧ look entry ≠ watched

namespace Spells

variable {α : Type} {look : α → UInt8} {plain : UInt8 → α} {spell : α → Bytes} {watched : UInt8}

theorem flatMap_plain (hspells : Spells look plain spell watched) (data : Bytes) :
    (data.map plain).flatMap spell = data := by
  rw [List.flatMap_map]
  simp [hspells.spell_plain]

theorem rdropWhile_flatMap (hspells : Spells look plain spell watched) (entries : List α) :
    (entries.flatMap spell).rdropWhile (· == watched) =
      (entries.rdropWhile (look · == watched)).flatMap spell := by
  induction entries using List.reverseRecOn with
  | nil => rfl
  | append_singleton entries last ih =>
      rw [List.flatMap_append, List.flatMap_singleton, List.rdropWhile_concat]
      rcases hspells.spell_eq last with hspell | ⟨hnonempty, hwatched, hlook⟩
      · rw [hspell, List.rdropWhile_concat, ih]
        split
        · rfl
        · rw [List.flatMap_append, List.flatMap_singleton, hspell]
      · -- The last byte of the spelling is not dropped, and so nothing before it is.
        obtain ⟨front, byte, hspell⟩ := (List.eq_nil_or_concat _).resolve_left hnonempty
        have hbyte : byte ≠ watched := by
          rintro rfl
          simp [hspell] at hwatched
        rw [if_neg (by simpa using hlook), List.flatMap_append, List.flatMap_singleton, hspell,
          List.concat_eq_append, ← List.append_assoc, List.rdropWhile_concat,
          if_neg (by simpa using hbyte)]

theorem marked_flatMap (hspells : Spells look plain spell Bytes.newline) (marker : Bytes)
    (atLineStart : Bool) (entries : List α) :
    marked marker atLineStart (entries.flatMap spell) =
      (markedBy look plain marker atLineStart entries).flatMap spell := by
  induction entries generalizing atLineStart with
  | nil => rfl
  | cons entry rest ih =>
      have hlead : (if atLineStart then (lead marker [look entry]).map plain else []).flatMap
          spell = if atLineStart then lead marker [look entry] else [] := by
        split
        · exact hspells.flatMap_plain _
        · rfl
      rw [markedBy, List.flatMap_cons, List.flatMap_append, List.flatMap_cons, hlead, ← ih]
      rcases hspells.spell_eq entry with hspell | ⟨hnonempty, hnewline, hlook⟩
      · rw [hspell]
        rfl
      · rw [beq_false_of_ne hlook, lead_of_ne marker hlook]
        cases atLineStart with
        | false => exact marked_line marker hnewline _
        | true =>
            rw [marked_opened_line marker hnewline hnonempty, List.append_assoc]
            rfl

end Spells

/-- Writing entries out and passing them through a layer can be done in either order. -/
theorem emit_flatMap {α : Type} {look : α → UInt8} {plain : UInt8 → α} {spell : α → Bytes}
    {layer : Layer} (hspells : Spells look plain spell layer.watched) (entries : List α) :
    layer.emit (entries.flatMap spell) = (layer.emitBy look plain entries).flatMap spell := by
  cases layer with
  | margin marker atLineStart => exact hspells.marked_flatMap marker atLineStart entries
  | trim byte pending =>
      have hpending : (List.replicate pending (plain byte)).flatMap spell =
          List.replicate pending byte := by
        rw [← List.map_replicate]
        exact hspells.flatMap_plain _
      have hwhole := hspells.rdropWhile_flatMap (List.replicate pending (plain byte) ++ entries)
      rw [List.flatMap_append, hpending] at hwhole
      exact hwhole

end CanonicalMarkdown.Output.Layer
