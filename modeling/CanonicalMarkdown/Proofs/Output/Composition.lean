import CanonicalMarkdown.Proofs.Output.Layer

namespace CanonicalMarkdown.Output

/-! What a layer makes of a whole text, said of its lines and of its end. -/

namespace Layer

/-- A line in a margin. The marker of an empty line loses the white space at its end. -/
def margined (marker line : Bytes) : Bytes :=
  (if line = [Bytes.newline] then marker.rdropWhile Bytes.isBlank else marker) ++ line

/-- The lines in a margin, the first of them bare unless it starts a line. -/
def marginedFrom (marker : Bytes) (atLineStart : Bool) : List Bytes → Bytes
  | [] => []
  | first :: rest =>
      (if atLineStart then margined marker first else first) ++ rest.flatMap (margined marker)

def image : Layer → Bytes → Bytes
  | .margin marker atLineStart, data => marginedFrom marker atLineStart data.lines
  | .trim byte _, data => data.rdropWhile (· == byte)

/-- Nothing has been written to the layer. -/
def IsFresh : Layer → Prop
  | .margin _ _ => True
  | .trim _ pending => pending = 0

theorem marginedFrom_true (marker : Bytes) (lines : List Bytes) :
    marginedFrom marker true lines = lines.flatMap (margined marker) := by
  cases lines with
  | nil => rfl
  | cons first rest => simp [marginedFrom]

theorem marked_eq_marginedFrom (marker : Bytes) (atLineStart : Bool) (data : Bytes) :
    marked marker atLineStart data = marginedFrom marker atLineStart data.lines := by
  induction data generalizing atLineStart with
  | nil => rfl
  | cons byte rest ih =>
      by_cases hbyte : byte = Bytes.newline
      · subst hbyte
        have hline : margined marker [Bytes.newline] =
            lead marker [Bytes.newline] ++ [Bytes.newline] := rfl
        have hrest : marked marker true rest = (Bytes.lines rest).flatMap (margined marker) := by
          rw [ih, marginedFrom_true]
        simp only [marked, beq_self_eq_true, hrest, Bytes.lines, if_true, marginedFrom, hline]
        cases atLineStart <;> simp
      · have hfalse : (byte == Bytes.newline) = false := beq_false_of_ne hbyte
        have hlead (line : Bytes) :
            margined marker (byte :: line) = lead marker [byte] ++ byte :: line := by
          simp [margined, lead, hbyte]
        simp only [marked, hfalse, ih, Bytes.lines, hbyte, if_false]
        cases hlines : Bytes.lines rest with
        | nil => cases atLineStart <;> simp [marginedFrom, hlead]
        | cons line others => cases atLineStart <;> simp [marginedFrom, hlead]

theorem IsFresh.emit_eq_image {layer : Layer} (hfresh : layer.IsFresh) (data : Bytes) :
    layer.emit data = layer.image data := by
  cases layer with
  | margin marker atLineStart => exact marked_eq_marginedFrom marker atLineStart data
  | trim byte pending =>
      obtain rfl : pending = 0 := hfresh
      rfl

/-! Several layers, listed from the bottom up. The top one is written to first. -/

def emitAll (layers : List Layer) (data : Bytes) : Bytes := layers.foldr emit data

def afterAll : List Layer → Bytes → List Layer
  | [], _ => []
  | layer :: above, data => layer.after (emitAll above data) :: afterAll above data

theorem emitAll_concat (layers : List Layer) (top : Layer) (data : Bytes) :
    emitAll (layers ++ [top]) data = emitAll layers (top.emit data) := by
  simp [emitAll]

theorem afterAll_concat (layers : List Layer) (top : Layer) (data : Bytes) :
    afterAll (layers ++ [top]) data = afterAll layers (top.emit data) ++ [top.after data] := by
  induction layers with
  | nil => rfl
  | cons layer above ih => simp [afterAll, emitAll_concat, ih]

theorem getElem?_afterAll (below above : List Layer) (layer : Layer) (data : Bytes) :
    (afterAll (below ++ layer :: above) data)[below.length]? =
      some (layer.after (emitAll above data)) := by
  induction below with
  | nil => rfl
  | cons other rest ih => simpa [afterAll] using ih

theorem emitAll_eq_image {layers : List Layer} (hfresh : ∀ layer ∈ layers, layer.IsFresh)
    (data : Bytes) : emitAll layers data = layers.foldr image data := by
  induction layers with
  | nil => rfl
  | cons layer above ih =>
      have habove := ih fun other hother => hfresh other (by simp [hother])
      change layer.emit (emitAll above data) = layer.image (above.foldr image data)
      rw [habove, (hfresh layer (by simp)).emit_eq_image]

end Layer

/-! Stacks over a buffer. -/

namespace Stack

open Writer

theorem layers_fed : (depth : Nat) → (stack : Stack Buffer depth) → (data : Bytes) →
    layers depth (fed stack data) = Layer.afterAll (layers depth stack) data
  | 0, _, _ => rfl
  | depth + 1, stack, data => by
      have hfed : fed stack data = (⟨stack.layer.after data,
          fed stack.below (stack.layer.emit data)⟩ : Layered (Stack Buffer depth)) :=
        Layered.fed_eq data stack
      rw [hfed]
      simp only [layers]
      rw [layers_fed depth, Layer.afterAll_concat]

theorem contents_fed : (depth : Nat) → (stack : Stack Buffer depth) → (data : Bytes) →
    Sink.contents (bottom depth (fed stack data)) =
      Sink.contents (bottom depth stack) ++ Layer.emitAll (layers depth stack) data
  | 0, stack, data => Buffer.contents_fed stack data
  | depth + 1, stack, data => by
      have hfed : fed stack data = (⟨stack.layer.after data,
          fed stack.below (stack.layer.emit data)⟩ : Layered (Stack Buffer depth)) :=
        Layered.fed_eq data stack
      rw [hfed]
      simp only [bottom, layers]
      rw [contents_fed depth, Layer.emitAll_concat]

end Stack

namespace Tower

variable {σ : Type}

/-- The layers on a sink, listed from the bottom up. -/
def stacked (layers : List Layer) (sink : σ) : Tower σ :=
  layers.foldl (fun tower layer => tower.push layer) (ofSink sink)

theorem layers_foldl_push (added : List Layer) (tower : Tower σ) :
    (added.foldl (fun tower layer => tower.push layer) tower).layers = tower.layers ++ added := by
  induction added generalizing tower with
  | nil => simp
  | cons layer rest ih =>
      rw [List.foldl_cons, ih]
      simp [layers, push, Stack.layers]

theorem sink_foldl_push (added : List Layer) (tower : Tower σ) :
    (added.foldl (fun tower layer => tower.push layer) tower).sink = tower.sink := by
  induction added generalizing tower with
  | nil => rfl
  | cons layer rest ih =>
      rw [List.foldl_cons, ih]
      rfl

theorem layers_stacked (layers : List Layer) (sink : σ) :
    (stacked layers sink).layers = layers := by
  rw [stacked, layers_foldl_push]
  rfl

theorem sink_stacked (layers : List Layer) (sink : σ) : (stacked layers sink).sink = sink := by
  rw [stacked, sink_foldl_push]
  rfl

/-- The tower that operations leave, whatever they report. -/
def performed [Writer σ] (operations : List Operation) (tower : Tower σ) : Tower σ :=
  operations.foldl (fun tower operation => (tower.perform operation).state) tower

variable [Writer σ] [Steady σ]

def fed (tower : Tower σ) (data : Bytes) : Tower σ := ⟨tower.depth, Writer.fed tower.stack data⟩

theorem perform_write (chunk : Chunk) (tower : Tower σ) :
    tower.perform (.write chunk) = ⟨.ok chunk.count?, tower.fed chunk.data⟩ := by
  simp [perform, Steady.put_eq, fed]

theorem performed_writes (chunks : List Chunk) (tower : Tower σ) :
    tower.performed (chunks.map .write) = tower.fed (chunks.flatMap Chunk.data) := by
  induction chunks generalizing tower with
  | nil => simp [performed, fed, Steady.fed_nil]
  | cons chunk rest ih =>
      have hstep : tower.performed ((chunk :: rest).map .write) =
          (tower.fed chunk.data).performed (rest.map .write) := by
        simp [performed, perform_write]
      have hfed := Steady.fed_append tower.stack chunk.data (rest.flatMap Chunk.data)
      rw [hstep, ih, List.flatMap_cons]
      exact congrArg (Tower.mk tower.depth) hfed.symm

theorem performAll_writes (chunks : List Chunk) (tower : Tower σ) :
    (tower.performAll (chunks.map .write)).map Outcome.result =
      chunks.map fun chunk => .ok chunk.count? := by
  induction chunks generalizing tower with
  | nil => rfl
  | cons chunk rest ih => simp [performAll, perform_write, ih]

end Tower

/-- However a text is divided among calls, every call on a stack of fresh layers goes through and
the buffer below holds what the layers make of the whole text, each in turn from the top; a
trimming layer holds back the run at the end of what reached it. -/
theorem Tower.writes_compose_images (layers : List Layer)
    (hfresh : ∀ layer ∈ layers, layer.IsFresh) (chunks : List Chunk) :
    let tower := Tower.stacked layers Buffer.empty
    let calls := chunks.map Operation.write
    let text := chunks.flatMap Chunk.data
    (tower.performAll calls).map Outcome.result = chunks.map (fun chunk => .ok chunk.count?) ∧
      Sink.contents (tower.performed calls).sink = layers.foldr Layer.image text ∧
      ∀ below byte above, layers = below ++ .trim byte 0 :: above →
        (tower.performed calls).layers[below.length]? =
          some (.trim byte ((above.foldr Layer.image text).rtakeWhile (· == byte)).length) := by
  intro tower calls text
  have hperformed : tower.performed calls = tower.fed text := Tower.performed_writes chunks tower
  have hlayers : tower.layers = layers := Tower.layers_stacked layers Buffer.empty
  have hsink : Sink.contents tower.sink = [] :=
    congrArg Sink.contents (Tower.sink_stacked layers Buffer.empty)
  refine ⟨Tower.performAll_writes chunks tower, ?_, ?_⟩
  · rw [hperformed, ← Layer.emitAll_eq_image hfresh, ← hlayers]
    have hcontents := Stack.contents_fed tower.depth tower.stack text
    rwa [show Sink.contents (Stack.bottom tower.depth tower.stack) = [] from hsink] at hcontents
  · intro below byte above hsplit
    have habove : ∀ layer ∈ above, layer.IsFresh := fun layer hlayer =>
      hfresh layer (by simp [hsplit, hlayer])
    have hafter : (tower.fed text).layers = Layer.afterAll layers text := by
      rw [← hlayers]
      exact Stack.layers_fed tower.depth tower.stack text
    rw [hperformed, hafter, hsplit, Layer.getElem?_afterAll, Layer.emitAll_eq_image habove]
    rfl

/-- A quotation in a list item: each line after the first is indented, an empty line has a bare
marker, and the two newlines at the end are held back. -/
theorem Tower.quotation_in_item_writes :
    let layers : List Layer := [.indent 2, .margin [62, 32] true, .trim 10 0]
    let chunks : List Chunk := [.bytes [97, 10, 10], .byte 98, .bytes [10, 10]]
    let tower := (Tower.stacked layers Buffer.empty).performed (chunks.map .write)
    (∀ layer ∈ layers, layer.IsFresh) ∧
      Sink.contents tower.sink =
        [62, 32, 97, 10, 32, 32, 62, 10, 32, 32, 62, 32, 98] ∧
      tower.layers[2]? = some (.trim 10 2) := by
  intro layers chunks tower
  have hfresh : ∀ layer ∈ layers, layer.IsFresh := by simp [layers, Layer.IsFresh, Layer.indent]
  obtain ⟨-, hsink, hpending⟩ := Tower.writes_compose_images layers hfresh chunks
  exact ⟨hfresh, hsink.trans (by decide),
    (hpending [.indent 2, .margin [62, 32] true] 10 [] rfl).trans (by decide)⟩

end CanonicalMarkdown.Output
