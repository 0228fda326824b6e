import CanonicalMarkdown.Settings.Expansion
import Mathlib

namespace CanonicalMarkdown.Settings

/-! An entry made of braced references and of characters that stand for themselves. -/

inductive Token where
  | braced (inner : List Char)
  /-- A character, with the one right after it. -/
  | char (c : Char) (next : Option Char)
  deriving DecidableEq, Repr

namespace Token

/-- The braced reference that a text starts with, and what comes after it. -/
def bracedAt? : List Char → Option (List Char × List Char)
  | '$' :: '\x7b' :: body =>
      match body.dropWhile (· != '\x7d') with
      | [] => none
      | _ :: rest => some (body.takeWhile (· != '\x7d'), rest)
  | _ => none

theorem bracedAt?_eq_some {text inner rest : List Char}
    (htext : bracedAt? text = some (inner, rest)) :
    ∃ body closing, text = '$' :: '\x7b' :: body ∧ inner = body.takeWhile (· != '\x7d') ∧
      body.dropWhile (· != '\x7d') = closing :: rest := by
  unfold bracedAt? at htext
  split at htext
  · next body =>
      split at htext
      · cases htext
      · next closing after hclosing =>
          cases htext
          exact ⟨body, closing, rfl, rfl, hclosing⟩
  · cases htext

theorem bracedAt?_of_ne {c : Char} (hc : c ≠ '$') (rest : List Char) :
    bracedAt? (c :: rest) = none := by
  unfold bracedAt?
  split
  · next heq => exact absurd (List.cons.inj heq).1 hc
  · rfl

theorem bracedAt?_dollar_of_ne {next : Char} (hnext : next ≠ '\x7b') (rest : List Char) :
    bracedAt? ('$' :: next :: rest) = none := by
  unfold bracedAt?
  split
  · next heq => exact absurd (List.cons.inj (List.cons.inj heq).2).1 hnext
  · rfl

theorem length_lt_of_bracedAt? {text inner rest : List Char}
    (htext : bracedAt? text = some (inner, rest)) : rest.length < text.length := by
  obtain ⟨body, closing, rfl, -, hclosing⟩ := bracedAt?_eq_some htext
  have hsuffix : (closing :: rest).length ≤ body.length :=
    hclosing ▸ (List.dropWhile_suffix _).length_le
  simp only [List.length_cons] at hsuffix ⊢
  omega

def read : List Char → List Token
  | [] => []
  | c :: rest =>
      match _hat : bracedAt? (c :: rest) with
      | some (inner, after) => .braced inner :: read after
      | none => .char c rest.head? :: read rest
termination_by text => text.length
decreasing_by
  · exact length_lt_of_bracedAt? _hat
  · exact Nat.lt_succ_self _

theorem read_of_some {text inner after : List Char}
    (htext : bracedAt? text = some (inner, after)) : read text = .braced inner :: read after := by
  cases text with
  | nil => cases htext
  | cons c rest =>
      rw [read]
      split
      · next hother =>
          cases htext.symm.trans hother
          rfl
      · next hnone => cases htext.symm.trans hnone

theorem read_of_none {c : Char} {rest : List Char} (htext : bracedAt? (c :: rest) = none) :
    read (c :: rest) = .char c rest.head? :: read rest := by
  rw [read]
  split
  · next hsome => cases htext.symm.trans hsome
  · rfl

/-- Only a braced reference is replaced. -/
def piece : Token → Piece
  | .braced inner => .braced inner
  | .char c _ => .text [c]

/-- A dollar sign with a name or another dollar sign right after it. -/
def isBare : Token → Bool
  | .braced _ => false
  | .char c next => c == '$' && next.any fun other => other == '$' || Piece.isNameChar other

end Token

/-- Replaces braced references and keeps everything else. -/
def expandBraced (environment : Environment) (entry : List Char) : Except String (List Char) :=
  Piece.expandAll environment ((Token.read entry).map Token.piece)

def hasBareReference (entry : List Char) : Bool := (Token.read entry).any Token.isBare

namespace Piece

open Token

/-! How an entry is read, one case after the other. -/

section

variable {text inner after rest : List Char} {c next : Char} (steps : Nat)

attribute [local simp] ofChars

theorem drop_length_takeWhile (p : Char → Bool) (text : List Char) :
    text.drop (text.takeWhile p).length = text.dropWhile p := by
  have hdrop : ((text.takeWhile p) ++ text.dropWhile p).drop (text.takeWhile p).length =
      text.dropWhile p := List.drop_left
  rwa [List.takeWhile_append_dropWhile] at hdrop

theorem ofChars_of_some (htext : bracedAt? text = some (inner, after)) :
    ofChars (steps + 1) text = braced inner :: ofChars steps after := by
  obtain ⟨body, closing, rfl, rfl, hclosing⟩ := bracedAt?_eq_some htext
  simp [drop_length_takeWhile, hclosing]

theorem ofChars_unclosed (htext : bracedAt? ('$' :: '\x7b' :: rest) = none) :
    ofChars (steps + 1) ('$' :: '\x7b' :: rest) = .text ['$', '\x7b'] :: ofChars steps rest := by
  have hclosing : rest.dropWhile (· != '\x7d') = [] := by
    cases hdrop : rest.dropWhile (· != '\x7d') with
    | nil => rfl
    | cons closing after => simp [bracedAt?, hdrop] at htext
  simp [drop_length_takeWhile, hclosing]

theorem ofChars_dollar (hrest : ∀ next ∈ rest.head?, next ≠ '\x7b' ∧ next ≠ '$' ∧
      isNameChar next = false) :
    ofChars (steps + 1) ('$' :: rest) = .text ['$'] :: ofChars steps rest := by
  have hname : (rest.takeWhile isNameChar).isEmpty = true := by
    cases rest with
    | nil => rfl
    | cons next rest => simp [(hrest next rfl).2.2]
  rw [ofChars, if_pos hname]
  · rintro body rfl
    exact (hrest _ rfl).1 rfl
  · rintro other rfl
    exact (hrest _ rfl).2.1 rfl

theorem ofChars_bare (hbrace : next ≠ '\x7b') (hdollar : next ≠ '$')
    (hnext : isNameChar next = true) :
    ∃ name later, ofChars (steps + 1) ('$' :: next :: rest) =
      .reference name none :: ofChars steps later := by
  have hname : ¬((next :: rest).takeWhile isNameChar).isEmpty = true := by simp [hnext]
  rw [ofChars, if_neg hname]
  · exact ⟨_, _, rfl⟩
  · rintro body heq
    exact hbrace (List.cons.inj heq).1
  · rintro other heq
    exact hdollar (List.cons.inj heq).1

theorem ofChars_of_ne (hc : c ≠ '$') :
    ofChars (steps + 1) (c :: rest) = .text [c] :: ofChars steps rest := by
  simp [hc]

end

theorem expandAll_cons (environment : Environment) (piece : Piece) (pieces : List Piece) :
    expandAll environment (piece :: pieces) =
      piece.expand environment >>= fun chars => (chars ++ ·) <$> expandAll environment pieces := rfl

theorem expandAll_text (environment : Environment) (chars : List Char) (pieces : List Piece) :
    expandAll environment (.text chars :: pieces) = (chars ++ ·) <$> expandAll environment pieces :=
  rfl

theorem expandAll_append (environment : Environment) (first second : List Piece) :
    expandAll environment (first ++ second) =
      expandAll environment first >>= fun chars =>
        (chars ++ ·) <$> expandAll environment second := by
  induction first with
  | nil => exact (id_map _).symm
  | cons piece first ih =>
      rw [List.cons_append, expandAll_cons, expandAll_cons, ih]
      simp

theorem isNameChar_brace : isNameChar '\x7b' = false := by decide +kernel

/-- The two readings of an entry take the same piece off it. -/
def StartsAlike (steps : Nat) (text : List Char) : Prop :=
  ∃ tokens piece after, after.length < text.length ∧ read text = tokens ++ read after ∧
    tokens.any isBare = false ∧ ofChars (steps + 1) text = piece :: ofChars steps after ∧
    ∀ environment, expandAll environment (tokens.map Token.piece) = piece.expand environment

section

variable {steps : Nat} {c : Char} {text rest inner after : List Char}

theorem expandAll_singleton (environment : Environment) (piece : Piece) :
    expandAll environment [piece] = piece.expand environment := by
  rw [expandAll_cons]
  cases piece.expand environment with
  | error name => rfl
  | ok chars => exact congrArg Except.ok (List.append_nil chars)

theorem startsAlike_of_some (htext : bracedAt? text = some (inner, after)) :
    StartsAlike steps text :=
  ⟨[.braced inner], braced inner, after, length_lt_of_bracedAt? htext, read_of_some htext, rfl,
    ofChars_of_some steps htext, fun environment => expandAll_singleton environment _⟩

theorem startsAlike_of_char (htext : bracedAt? (c :: rest) = none)
    (hbare : isBare (.char c rest.head?) = false)
    (hchars : ofChars (steps + 1) (c :: rest) = .text [c] :: ofChars steps rest) :
    StartsAlike steps (c :: rest) :=
  ⟨[.char c rest.head?], .text [c], rest, Nat.lt_succ_self _, read_of_none htext,
    by simp [hbare], hchars, fun environment => expandAll_singleton environment _⟩

theorem startsAlike_of_unclosed (htext : bracedAt? ('$' :: '\x7b' :: rest) = none) :
    StartsAlike steps ('$' :: '\x7b' :: rest) := by
  refine ⟨[.char '$' (some '\x7b'), .char '\x7b' rest.head?], .text ['$', '\x7b'], rest,
    Nat.lt_of_lt_of_le (Nat.lt_succ_self _) (Nat.le_succ _), ?_, ?_, ofChars_unclosed steps htext,
    fun environment => rfl⟩
  · rw [read_of_none htext, read_of_none (bracedAt?_of_ne (by decide) rest)]
    rfl
  · simp [isBare, isNameChar_brace]

/-- Unless an entry starts with a dollar sign that only one of the two readings keeps. -/
theorem startsAlike_or (steps : Nat) (htext : text ≠ []) :
    StartsAlike steps text ∨ (∃ rest, text = '$' :: '$' :: rest) ∨
      ∃ next rest, text = '$' :: next :: rest ∧ next ≠ '\x7b' ∧ next ≠ '$' ∧
        isNameChar next = true := by
  obtain ⟨c, rest, rfl⟩ := List.exists_cons_of_ne_nil htext
  cases hat : bracedAt? (c :: rest) with
  | some found => exact .inl (startsAlike_of_some hat)
  | none =>
      by_cases hc : c = '$'
      · subst hc
        cases rest with
        | nil => exact .inl (startsAlike_of_char hat rfl (ofChars_dollar steps (by simp)))
        | cons next rest =>
            by_cases hbrace : next = '\x7b'
            · subst hbrace
              exact .inl (startsAlike_of_unclosed hat)
            by_cases hdollar : next = '$'
            · subst hdollar
              exact .inr (.inl ⟨rest, rfl⟩)
            cases hname : isNameChar next with
            | true => exact .inr (.inr ⟨next, rest, rfl, hbrace, hdollar, hname⟩)
            | false =>
                refine .inl (startsAlike_of_char hat (by simp [isBare, hdollar, hname]) ?_)
                apply ofChars_dollar
                simp [hbrace, hdollar, hname]
      · exact .inl (startsAlike_of_char hat (by simp [isBare, hc]) (ofChars_of_ne steps hc))

end

/-! Entries without a bare reference. -/

section

variable {text rest : List Char}

theorem hasBareReference_dollar {next : Char} (hbrace : next ≠ '\x7b')
    (hnext : (next == '$' || isNameChar next) = true) :
    hasBareReference ('$' :: next :: rest) = true := by
  simp only [hasBareReference, read_of_none (bracedAt?_dollar_of_ne hbrace rest), List.any_cons,
    isBare, List.head?_cons, Option.any_some, hnext]
  rfl

theorem expandBraced_nil (environment : Environment) : expandBraced environment [] = .ok [] := by
  rw [expandBraced, Token.read]
  rfl

theorem expandBraced_of_read (environment : Environment) {tokens : List Token}
    {after : List Char} (hread : Token.read text = tokens ++ Token.read after) :
    expandBraced environment text =
      expandAll environment (tokens.map Token.piece) >>= fun chars =>
        (chars ++ ·) <$> expandBraced environment after := by
  rw [expandBraced, hread, List.map_append, expandAll_append]
  rfl

theorem expandAll_ofChars (environment : Environment) (steps : Nat)
    (hlength : text.length ≤ steps) (hbare : hasBareReference text = false) :
    expandAll environment (ofChars steps text) = expandBraced environment text := by
  induction steps generalizing text with
  | zero =>
      obtain rfl : text = [] := List.length_eq_zero_iff.1 (Nat.le_zero.1 hlength)
      exact (expandBraced_nil environment).symm
  | succ steps ih =>
      by_cases hnil : text = []
      · subst hnil
        exact (expandBraced_nil environment).symm
      obtain ⟨tokens, piece, after, hafter, hread, htokens, hchars, hpiece⟩ | ⟨rest, rfl⟩ |
        ⟨next, rest, rfl, hbrace, -, hname⟩ := startsAlike_or steps hnil
      · have hrest : hasBareReference after = false := by
          simpa [hasBareReference, hread, htokens] using hbare
        rw [hchars, expandAll_cons, ih (by omega) hrest, expandBraced_of_read environment hread,
          hpiece]
      · rw [hasBareReference_dollar (by decide) rfl] at hbare
        cases hbare
      · rw [hasBareReference_dollar hbrace (by simp [hname])] at hbare
        cases hbare

theorem expandBraced_of_hasBracedReference_eq_false (environment : Environment)
    (hbraced : hasBracedReference text = false) : expandBraced environment text = .ok text := by
  induction text with
  | nil => exact expandBraced_nil environment
  | cons c rest ih =>
      have hat : bracedAt? (c :: rest) = none := by
        unfold bracedAt?
        split
        · next heq =>
            rw [heq] at hbraced
            cases hbraced
        · rfl
      have hrest : hasBracedReference rest = false := by
        unfold hasBracedReference at hbraced
        split at hbraced
        · cases hbraced
        · next heq =>
            cases heq
            exact hbraced
        · next heq => cases heq
      have hread : Token.read (c :: rest) = [.char c rest.head?] ++ Token.read rest :=
        read_of_none hat
      rw [expandBraced_of_read environment hread, ih hrest]
      rfl

end

end Piece

/-- Every braced reference names a variable that some environment has. -/
def NamesVariables (entry : List Char) : Prop :=
  ∀ inner, Token.braced inner ∈ Token.read entry → ∀ name, (Piece.braced inner).name? = some name →
    ∃ (environment : Environment) (value : String), environment.value? name = some value

theorem NamesVariables.of_read {text after : List Char} {tokens : List Token}
    (hnames : NamesVariables text) (hread : Token.read text = tokens ++ Token.read after) :
    NamesVariables after := by
  intro inner hinner
  exact hnames inner (hread ▸ List.mem_append_right tokens hinner)

namespace Environment

/-- All variables are set, and none to a text with a dollar sign. -/
def filled : Environment := ⟨fun _ => some "x"⟩

theorem filled_value? {environment : Environment} {name value : String}
    (hvalue : environment.value? name = some value) : filled.value? name = some "x" := by
  unfold value? at hvalue ⊢
  split at hvalue
  · cases hvalue
  · next hname => rw [if_neg hname, filled]

end Environment

namespace Piece

open Token

section

variable {text rest : List Char}

theorem expand_filled {inner : List Char} (hnames : NamesVariables text)
    (hinner : Token.braced inner ∈ Token.read text) :
    (braced inner).expand .filled = .ok ['x'] := by
  have hreference : ∃ name default, braced inner = .reference name default := by
    unfold braced
    split <;> exact ⟨_, _, rfl⟩
  obtain ⟨name, default, hbraced⟩ := hreference
  obtain ⟨environment, value, hvalue⟩ := hnames inner hinner name (by rw [hbraced]; rfl)
  simp only [hbraced, expand, Environment.filled_value? hvalue]
  rfl

theorem exists_expandBraced_filled (hnames : NamesVariables text) :
    ∃ kept, expandBraced .filled text = .ok kept := by
  have htokens : ∀ tokens : List Token,
      (∀ inner, Token.braced inner ∈ tokens → (braced inner).expand .filled = .ok ['x']) →
      ∃ kept, expandAll .filled (tokens.map Token.piece) = .ok kept := by
    intro tokens hfilled
    induction tokens with
    | nil => exact ⟨[], rfl⟩
    | cons token tokens ih =>
        obtain ⟨kept, hkept⟩ := ih fun inner hinner => hfilled inner (List.mem_cons_of_mem _ hinner)
        rw [List.map_cons, expandAll_cons, hkept]
        cases token with
        | braced inner =>
            rw [Token.piece, hfilled inner List.mem_cons_self]
            exact ⟨_, rfl⟩
        | char c next => exact ⟨_, rfl⟩
  exact htokens _ fun inner hinner => expand_filled hnames hinner

/-- A piece that both readings take does not make up for dollar signs that only one of them has. -/
theorem eq_replicate_append_of_append {dollar : Char} {dollars : Nat}
    {piece first second : List Char}
    (heq : piece ++ first = List.replicate dollars dollar ++ (piece ++ second)) :
    first = List.replicate dollars dollar ++ second := by
  induction piece with
  | nil => exact heq
  | cons c piece ih =>
      cases dollars with
      | zero => exact List.append_cancel_left heq
      | succ dollars =>
          rw [List.replicate_succ, List.cons_append, List.cons_append, List.cons.injEq] at heq
          apply ih
          rw [heq.2, List.replicate_succ', heq.1]
          simp

theorem map_append_ne {dollars : Nat} (piece : List Char) {first second : Except String (List Char)}
    (hne : first ≠ (List.replicate dollars '$' ++ ·) <$> second) :
    (piece ++ ·) <$> first ≠ (List.replicate dollars '$' ++ ·) <$> (piece ++ ·) <$> second := by
  rcases first with name | first <;> rcases second with other | second
  · exact hne
  · exact fun heq => nomatch heq
  · exact fun heq => nomatch heq
  · intro heq
    exact hne (congrArg Except.ok (eq_replicate_append_of_append (Except.ok.inj heq)))

theorem read_dollar (htext : bracedAt? ('$' :: rest) = none) :
    Token.read ('$' :: rest) = [.char '$' rest.head?] ++ Token.read rest := read_of_none htext

theorem expandBraced_dollar (environment : Environment) (htext : bracedAt? ('$' :: rest) = none) :
    expandBraced environment ('$' :: rest) = ('$' :: ·) <$> expandBraced environment rest :=
  expandBraced_of_read environment (read_dollar htext)

theorem expandAll_reference_ne (name : String) (pieces : List Piece) (kept : List Char) :
    expandAll .filled (.reference name none :: pieces) ≠ .ok ('$' :: kept) := by
  have hvalue : Environment.filled.value? name = none ∨
      Environment.filled.value? name = some "x" := by
    unfold Environment.value?
    split
    · exact .inl rfl
    · exact .inr rfl
  rw [expandAll_cons]
  rcases hvalue with hvalue | hvalue <;> simp only [expand, hvalue]
  · exact fun heq => nomatch heq
  · cases expandAll .filled pieces with
    | error name => exact fun heq => nomatch heq
    | ok chars =>
        intro heq
        exact absurd (List.cons.inj (Except.ok.inj heq)).1 (by decide)

theorem replicate_append_dollar (dollars : Nat) (kept : List Char) :
    List.replicate dollars '$' ++ '$' :: kept = '$' :: (List.replicate dollars '$' ++ kept) := by
  rw [List.append_cons, ← List.replicate_succ', List.replicate_succ, List.cons_append]

section

variable {steps dollars : Nat}

theorem expandAll_nil_ne (hmore : 0 < dollars ∨ hasBareReference [] = true) :
    expandAll .filled (ofChars steps []) ≠
      (List.replicate dollars '$' ++ ·) <$> expandBraced .filled [] := by
  have hbare : hasBareReference [] = false := by
    rw [hasBareReference, Token.read]
    rfl
  have hchars : ofChars steps [] = [] := by
    cases steps <;> rfl
  rw [hchars, expandBraced_nil]
  intro heq
  have hnil : [] = List.replicate dollars '$' ++ [] := Except.ok.inj heq
  have hdollars : dollars = 0 := by simpa using hnil
  simp [hdollars, hbare] at hmore

theorem expandAll_bare_ne {next : Char} (hbrace : next ≠ '\x7b') (hdollar : next ≠ '$')
    (hname : isNameChar next = true) (hnames : NamesVariables ('$' :: next :: rest)) :
    expandAll .filled (ofChars (steps + 1) ('$' :: next :: rest)) ≠
      (List.replicate dollars '$' ++ ·) <$> expandBraced .filled ('$' :: next :: rest) := by
  have hat := bracedAt?_dollar_of_ne hbrace rest
  obtain ⟨name, later, hchars⟩ := ofChars_bare steps hbrace hdollar hname
  obtain ⟨kept, hkept⟩ := exists_expandBraced_filled (hnames.of_read (read_dollar hat))
  rw [hchars, expandBraced_dollar _ hat, hkept]
  show _ ≠ Except.ok (List.replicate dollars '$' ++ '$' :: kept)
  rw [replicate_append_dollar]
  exact expandAll_reference_ne name _ _

/-- Of two dollar signs one reading keeps only the first, even where the second starts a
reference. -/
theorem expandAll_escape_ne {inner after : List Char} (hlength : rest.length ≤ steps)
    (hat : bracedAt? ('$' :: rest) = some (inner, after)) (hnames : NamesVariables ('$' :: rest)) :
    expandAll .filled (.text ['$'] :: ofChars steps rest) ≠
      (List.replicate dollars '$' ++ ·) <$> ('$' :: ·) <$> expandBraced .filled ('$' :: rest) := by
  have hread : Token.read ('$' :: rest) = [.braced inner] ++ Token.read after := read_of_some hat
  have hinner : (braced inner).expand .filled = .ok ['x'] :=
    expand_filled hnames (hread ▸ List.mem_cons_self)
  obtain ⟨kept, hkept⟩ := exists_expandBraced_filled (hnames.of_read hread)
  obtain ⟨body, closing, hrest, -, -⟩ := bracedAt?_eq_some hat
  cases (List.cons.inj hrest).2
  cases steps with
  | zero => cases hlength
  | succ steps =>
      rw [ofChars_of_ne steps (by decide), expandBraced_of_read _ hread, List.map_singleton,
        expandAll_singleton, Token.piece, hinner, hkept]
      show _ ≠ Except.ok (List.replicate dollars '$' ++ '$' :: 'x' :: kept)
      rw [replicate_append_dollar]
      cases hbody : expandAll .filled (ofChars steps body) with
      | error name => simp [expandAll_text, hbody]
      | ok chars => cases dollars <;> simp [expandAll_text, hbody, List.replicate_succ]

end

/-- With two dollar signs, one reading is behind by one from there on. -/
theorem expandAll_ofChars_ne {steps dollars : Nat} (hlength : text.length ≤ steps)
    (hnames : NamesVariables text) (hmore : 0 < dollars ∨ hasBareReference text = true) :
    expandAll .filled (ofChars steps text) ≠
      (List.replicate dollars '$' ++ ·) <$> expandBraced .filled text := by
  induction steps generalizing text dollars with
  | zero =>
      obtain rfl : text = [] := List.length_eq_zero_iff.1 (Nat.le_zero.1 hlength)
      exact expandAll_nil_ne hmore
  | succ steps ih =>
      by_cases hnil : text = []
      · subst hnil
        exact expandAll_nil_ne hmore
      obtain ⟨tokens, piece, after, hafter, hread, htokens, hchars, hpiece⟩ | ⟨rest, rfl⟩ |
        ⟨next, rest, rfl, hbrace, hdollar, hname⟩ := startsAlike_or steps hnil
      · have hmore' : 0 < dollars ∨ hasBareReference after = true := by
          simpa [hasBareReference, hread, htokens] using hmore
        have hne := ih (by omega) (hnames.of_read hread) hmore'
        obtain ⟨chars, hexpand⟩ : ∃ chars, piece.expand .filled = .ok chars := by
          obtain ⟨kept, hkept⟩ := exists_expandBraced_filled hnames
          rw [expandBraced_of_read _ hread, hpiece] at hkept
          cases hexpand : piece.expand .filled with
          | error name =>
              rw [hexpand] at hkept
              cases hkept
          | ok chars => exact ⟨chars, rfl⟩
        rw [hchars, expandAll_cons, expandBraced_of_read _ hread, hpiece, hexpand]
        exact map_append_ne chars hne
      · have hat := bracedAt?_dollar_of_ne (by decide : '$' ≠ '\x7b') rest
        have hnames' : NamesVariables ('$' :: rest) := hnames.of_read (read_dollar hat)
        have hrest : rest.length ≤ steps := by
          simp only [List.length_cons] at hlength
          omega
        rw [ofChars, expandBraced_dollar _ hat]
        cases hnext : bracedAt? ('$' :: rest) with
        | some found => exact expandAll_escape_ne hrest hnext hnames'
        | none =>
            rw [expandBraced_dollar _ hnext]
            apply map_append_ne ['$']
            have hne := ih hrest (hnames'.of_read (read_dollar hnext)) (.inl (Nat.succ_pos dollars))
            simpa [List.replicate_succ'] using hne
      · exact expandAll_bare_ne hbrace hdollar hname hnames

end

end Piece

/-- Braced references alone are replaced exactly in the entries that do not mix them with bare ones:
one opening brace turns on the replacement of the bare ones as well. -/
theorem only_braced_expanded_iff (entry : List Char) :
    (hasBracedReference entry = false ∨ hasBareReference entry = false →
      ∀ environment, expandVariables environment entry = expandBraced environment entry) ∧
    (NamesVariables entry →
      (∀ environment, expandVariables environment entry = expandBraced environment entry) →
      hasBracedReference entry = false ∨ hasBareReference entry = false) := by
  constructor
  · intro hentry environment
    cases hbraced : hasBracedReference entry with
    | false =>
        rw [expandVariables, hbraced]
        exact (Piece.expandBraced_of_hasBracedReference_eq_false environment hbraced).symm
    | true =>
        have hbare : hasBareReference entry = false :=
          hentry.resolve_left (ne_of_eq_of_ne hbraced Bool.noConfusion)
        rw [expandVariables, if_pos hbraced]
        exact Piece.expandAll_ofChars environment entry.length le_rfl hbare
  · intro hnames heq
    by_contra hentry
    obtain ⟨hbraced, hbare⟩ := not_or.1 hentry
    rw [Bool.not_eq_false] at hbraced hbare
    have hne : Piece.expandAll .filled (Piece.ofChars entry.length entry) ≠
        (List.replicate 0 '$' ++ ·) <$> expandBraced .filled entry :=
      Piece.expandAll_ofChars_ne le_rfl hnames (.inr hbare)
    have hfilled := heq .filled
    rw [expandVariables, if_pos hbraced] at hfilled
    exact hne (hfilled.trans (id_map _).symm)

def mixedEntry : List Char := "$A$\x7bB\x7d".toList

def Environment.ofPairs (pairs : List (String × String)) : Environment :=
  ⟨fun name => pairs.lookup name⟩

theorem read_mixedEntry :
    Token.read mixedEntry = [.char '$' (some 'A'), .char 'A' (some '$'), .braced ['B']] := by
  cbv

theorem plainDollar_kept :
    (∀ environment, expandVariables environment "$/$\x7bB\x7d".toList =
      expandBraced environment "$/$\x7bB\x7d".toList) ∧
    NamesVariables mixedEntry ∧
    ¬∀ environment,
      expandVariables environment mixedEntry = expandBraced environment mixedEntry := by
  have hplain : hasBareReference "$/$\x7bB\x7d".toList = false := by
    have hread : Token.read "$/$\x7bB\x7d".toList =
        [.char '$' (some '/'), .char '/' (some '$'), .braced ['B']] := by cbv
    rw [hasBareReference, hread]
    decide +kernel
  have hbare : hasBareReference mixedEntry = true := by
    rw [hasBareReference, read_mixedEntry]
    decide +kernel
  have hnames : NamesVariables mixedEntry := by
    intro inner hinner name hname
    obtain rfl : inner = ['B'] := by simpa [read_mixedEntry] using hinner
    cases hname
    exact ⟨.ofPairs [("B", "y")], "y", by cbv⟩
  refine ⟨(only_braced_expanded_iff _).1 (.inr hplain), hnames, fun heq => ?_⟩
  obtain hbraced | hfalse := (only_braced_expanded_iff _).2 hnames heq
  · cases hbraced
  · cases hbare.symm.trans hfalse

/-- The bare reference is replaced, or blamed although the braced one is set. -/
theorem mixedEntry_expanded :
    expandVariables (.ofPairs [("A", "x"), ("B", "y")]) mixedEntry = .ok "xy".toList ∧
      expandVariables (.ofPairs [("B", "y")]) mixedEntry = .error "A" ∧
      expandBraced (.ofPairs [("A", "x"), ("B", "y")]) mixedEntry = .ok "$Ay".toList ∧
      expandBraced (.ofPairs [("B", "y")]) mixedEntry = .ok "$Ay".toList := by
  have hpieces : Piece.ofChars 6 mixedEntry = [.reference "A" none, .reference "B" none] := by
    decide +kernel
  have hexpand : ∀ environment, expandVariables environment mixedEntry =
      Piece.expandAll environment [.reference "A" none, .reference "B" none] :=
    fun environment => congrArg (Piece.expandAll environment) hpieces
  refine ⟨?_, ?_, ?_, ?_⟩
  · rw [hexpand]
    cbv
  · rw [hexpand]
    cbv
  · cbv
  · cbv

end CanonicalMarkdown.Settings
