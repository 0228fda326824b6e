import CanonicalMarkdown.Proofs.Settings.Expansion
import CanonicalMarkdown.Proofs.Text.Run
import Mathlib

namespace CanonicalMarkdown.Settings

/-! What an entry comes to: its variables are replaced, and after that its tilde. -/

namespace Piece

/-- The first colon with a dash after a name separates the name from its default. -/
structure Defaults (inner name default : List Char) : Prop where
  split : inner = name ++ ':' :: '-' :: default
  named : name ≠ []
  first : ¬ [':', '-'] <:+: name

/-- The text starts with the piece, and this is what comes after it. -/
inductive Starts : List Char → Piece → List Char → Prop
  | plain {c : Char} {rest : List Char} (hc : c ≠ '$') : Starts (c :: rest) (.text [c]) rest
  | pair {rest : List Char} : Starts ('$' :: '$' :: rest) (.text ['$']) rest
  | lone {rest : List Char} (hrest : ∀ next ∈ rest.head?, next ≠ '\x7b' ∧ next ≠ '$' ∧
      isNameChar next = false) : Starts ('$' :: rest) (.text ['$']) rest
  | unclosed {rest : List Char} (hrest : '\x7d' ∉ rest) :
      Starts ('$' :: '\x7b' :: rest) (.text ['$', '\x7b']) rest
  | named {text name rest : List Char} (hrun : Text.LeadingRun isNameChar text name rest)
      (hname : name ≠ []) : Starts ('$' :: text) (.reference (String.ofList name) none) rest
  | braced {inner rest : List Char} (hinner : '\x7d' ∉ inner)
      (hdefault : ∀ name default, ¬ Defaults inner name default) :
      Starts ('$' :: '\x7b' :: (inner ++ '\x7d' :: rest))
        (.reference (String.ofList inner) none) rest
  | defaulted {inner name default rest : List Char} (hinner : '\x7d' ∉ inner)
      (hdefault : Defaults inner name default) :
      Starts ('$' :: '\x7b' :: (inner ++ '\x7d' :: rest))
        (.reference (String.ofList name) (some (String.ofList default))) rest

/-- The text is made of the pieces, one after the other. -/
inductive Consists : List Char → List Piece → Prop
  | nil : Consists [] []
  | cons {text rest : List Char} {piece : Piece} {pieces : List Piece}
      (hstarts : Starts text piece rest) (hrest : Consists rest pieces) :
      Consists text (piece :: pieces)

/-! Names and defaults. -/

theorem splitDefault?_append {name : List Char} (hfirst : ¬ [':', '-'] <:+: name)
    (before default : List Char) :
    splitDefault? before (name ++ ':' :: '-' :: default) =
      some (before.reverse ++ name, default) := by
  induction name generalizing before with
  | nil => rw [List.nil_append, splitDefault?, List.append_nil]
  | cons c name ih =>
      rw [List.infix_cons_iff, not_or] at hfirst
      rw [List.cons_append, splitDefault?, ih hfirst.2, List.reverse_cons, List.append_assoc,
        List.singleton_append]
      rintro rest rfl hrest
      cases name with
      | nil => cases hrest
      | cons next name =>
          obtain rfl := (List.cons.inj hrest).1
          exact hfirst.1 ⟨name, rfl⟩

theorem splitDefault?_eq_none {text : List Char} (htext : ¬ [':', '-'] <:+: text)
    (before : List Char) : splitDefault? before text = none := by
  induction text generalizing before with
  | nil => rfl
  | cons c rest ih =>
      rw [List.infix_cons_iff, not_or] at htext
      rw [splitDefault?, ih htext.2]
      rintro later rfl rfl
      exact htext.1 ⟨later, rfl⟩

theorem exists_first_pair {first second : Char} {text : List Char}
    (hpair : [first, second] <:+: text) :
    ∃ before after, text = before ++ first :: second :: after ∧
      ¬ [first, second] <:+: before := by
  induction text with
  | nil => simp at hpair
  | cons c rest ih =>
      by_cases hstart : [first, second] <+: c :: rest
      · obtain ⟨after, hafter⟩ := hstart
        exact ⟨[], after, hafter.symm, by simp⟩
      · obtain ⟨before, after, rfl, hbefore⟩ :=
          ih ((List.infix_cons_iff.mp hpair).resolve_left hstart)
        refine ⟨c :: before, after, rfl, fun hearlier => ?_⟩
        rcases List.infix_cons_iff.mp hearlier with hleading | hlater
        · exact hstart (hleading.trans (List.prefix_append (c :: before) _))
        · exact hbefore hlater

theorem Defaults.separated {inner name default : List Char}
    (hdefault : Defaults inner name default) : [':', '-'] <:+: inner :=
  ⟨name, default, by rw [hdefault.split]; simp⟩

theorem Defaults.braced_eq {inner name default : List Char}
    (hdefault : Defaults inner name default) :
    braced inner = .reference (String.ofList name) (some (String.ofList default)) := by
  obtain ⟨rfl, hnamed, hfirst⟩ := hdefault
  obtain ⟨c, name, rfl⟩ := List.exists_cons_of_ne_nil hnamed
  rw [braced, splitDefault?_append hfirst]
  rfl

/-- What looks like a default without a name before it is part of the name. -/
theorem not_defaults_of_leading (after name default : List Char) :
    ¬ Defaults (':' :: '-' :: after) name default := by
  rintro ⟨hsplit, hnamed, hfirst⟩
  match name with
  | [] => exact hnamed rfl
  | [c] => cases hsplit
  | c :: next :: name =>
      cases hsplit
      exact hfirst ⟨[], name, rfl⟩

theorem defaults_or (inner : List Char) :
    (∃ name default, Defaults inner name default) ∨
      (∀ name default, ¬ Defaults inner name default) ∧
        braced inner = .reference (String.ofList inner) none := by
  by_cases hpair : [':', '-'] <:+: inner
  · obtain ⟨name, default, rfl, hfirst⟩ := exists_first_pair hpair
    cases name with
    | nil => exact .inr ⟨not_defaults_of_leading default, rfl⟩
    | cons c name => exact .inl ⟨c :: name, default, rfl, List.cons_ne_nil c name, hfirst⟩
  · refine .inr ⟨fun name default hdefault => hpair hdefault.separated, ?_⟩
    rw [braced, splitDefault?_eq_none hpair]

theorem braced_of_not_defaults {inner : List Char}
    (hdefault : ∀ name default, ¬ Defaults inner name default) :
    braced inner = .reference (String.ofList inner) none := by
  rcases defaults_or inner with ⟨name, default, hdefaults⟩ | ⟨-, hbraced⟩
  · exact absurd hdefaults (hdefault name default)
  · exact hbraced

/-! Texts are read as they are made. -/

open Token

theorem bracedAt?_of_closed {inner : List Char} (hinner : '\x7d' ∉ inner) (rest : List Char) :
    bracedAt? ('$' :: '\x7b' :: (inner ++ '\x7d' :: rest)) = some (inner, rest) := by
  have hkept : ∀ c ∈ inner, (c != '\x7d') = true := by
    intro c hc
    exact bne_iff_ne.mpr fun heq => hinner (heq ▸ hc)
  rw [bracedAt?, List.dropWhile_append_of_pos hkept, List.takeWhile_append_of_pos hkept]
  simp

theorem bracedAt?_of_unclosed {rest : List Char} (hrest : '\x7d' ∉ rest) :
    bracedAt? ('$' :: '\x7b' :: rest) = none := by
  have hdrop : rest.dropWhile (· != '\x7d') = [] := by
    rw [List.dropWhile_eq_nil_iff]
    intro c hc
    exact bne_iff_ne.mpr fun heq => hrest (heq ▸ hc)
  rw [bracedAt?, hdrop]

theorem isNameChar_dollar : isNameChar '$' = false := by decide +kernel

theorem Starts.ofChars_eq {text rest : List Char} {piece : Piece}
    (hstarts : Starts text piece rest) (steps : Nat) :
    ofChars (steps + 1) text = piece :: ofChars steps rest := by
  cases hstarts with
  | plain hc => exact ofChars_of_ne steps hc
  | pair => rw [ofChars]
  | lone hrest => exact ofChars_dollar steps hrest
  | unclosed hrest => exact ofChars_unclosed steps (bracedAt?_of_unclosed hrest)
  | @named text name rest hrun hname =>
      have hhead : ∀ c body, text = c :: body → isNameChar c = true := by
        rintro c body rfl
        obtain ⟨first, others, rfl⟩ := List.exists_cons_of_ne_nil hname
        obtain rfl := (List.cons.inj hrun.split).1
        exact hrun.all c List.mem_cons_self
      rw [ofChars, hrun.takeWhile_eq, if_neg (by simpa using hname), ← hrun.takeWhile_eq,
        drop_length_takeWhile, hrun.dropWhile_eq]
      · intro body hbody
        cases isNameChar_brace.symm.trans (hhead _ body hbody)
      · intro later hlater
        cases isNameChar_dollar.symm.trans (hhead _ later hlater)
  | braced hinner hdefault =>
      rw [ofChars_of_some steps (bracedAt?_of_closed hinner _), braced_of_not_defaults hdefault]
  | defaulted hinner hdefault =>
      rw [ofChars_of_some steps (bracedAt?_of_closed hinner _), hdefault.braced_eq]

theorem Starts.length_lt {text rest : List Char} {piece : Piece}
    (hstarts : Starts text piece rest) : rest.length < text.length := by
  cases hstarts with
  | named hrun _ =>
      rw [hrun.split]
      simp only [List.length_cons, List.length_append]
      omega
  | plain | pair | lone | unclosed | braced | defaulted =>
      simp only [List.length_cons, List.length_append]
      omega

theorem exists_starts_brace (body : List Char) :
    ∃ piece rest, Starts ('$' :: '\x7b' :: body) piece rest := by
  by_cases hclosed : '\x7d' ∈ body
  · obtain ⟨inner, rest, rfl, hinner⟩ := List.eq_append_cons_of_mem hclosed
    rcases defaults_or inner with ⟨name, default, hdefault⟩ | ⟨hdefault, -⟩
    · exact ⟨_, _, .defaulted hinner hdefault⟩
    · exact ⟨_, _, .braced hinner hdefault⟩
  · exact ⟨_, _, .unclosed hclosed⟩

theorem exists_starts {text : List Char} (htext : text ≠ []) :
    ∃ piece rest, Starts text piece rest := by
  obtain ⟨c, rest, rfl⟩ := List.exists_cons_of_ne_nil htext
  by_cases hc : c = '$'
  · subst hc
    cases rest with
    | nil => exact ⟨_, _, .lone (by simp)⟩
    | cons next rest =>
        by_cases hbrace : next = '\x7b'
        · exact hbrace ▸ exists_starts_brace rest
        by_cases hdollar : next = '$'
        · subst hdollar
          exact ⟨_, _, .pair⟩
        cases hname : isNameChar next with
        | true =>
            have hrun := Text.leadingRun_takeWhile isNameChar (next :: rest)
            exact ⟨_, _, .named hrun (by simp [hname])⟩
        | false => exact ⟨_, _, .lone (by simp [hbrace, hdollar, hname])⟩
  · exact ⟨_, _, .plain hc⟩

theorem Consists.ofChars_eq {text : List Char} {pieces : List Piece}
    (hconsists : Consists text pieces) {steps : Nat} (hsteps : text.length ≤ steps) :
    ofChars steps text = pieces := by
  induction hconsists generalizing steps with
  | nil => cases steps <;> rfl
  | cons hstarts _ ih =>
      have hlength := hstarts.length_lt
      obtain ⟨steps, rfl⟩ : ∃ fewer, steps = fewer + 1 := ⟨steps - 1, by omega⟩
      rw [hstarts.ofChars_eq, ih (by omega)]

theorem exists_consists (text : List Char) : ∃ pieces, Consists text pieces := by
  induction hlength : text.length using Nat.strong_induction_on generalizing text with
  | _ length ih =>
      by_cases htext : text = []
      · exact ⟨[], htext ▸ .nil⟩
      · obtain ⟨piece, rest, hstarts⟩ := exists_starts htext
        obtain ⟨pieces, hrest⟩ := ih rest.length (hlength ▸ hstarts.length_lt) rest rfl
        exact ⟨piece :: pieces, .cons hstarts hrest⟩

end Piece

/-! The values of variables. -/

/-- No variable has an empty name or one with an equals sign in it. -/
def Environment.Sets (environment : Environment) (name value : String) : Prop :=
  name ≠ "" ∧ '=' ∉ name.toList ∧ environment.find? name = some value

/-- A set variable stands for its value, even where there is a default. -/
inductive Fills (environment : Environment) : Piece → List Char → Prop
  | text {chars : List Char} : Fills environment (.text chars) chars
  | set {name value : String} {default : Option String} (hset : environment.Sets name value) :
      Fills environment (.reference name default) value.toList
  | default {name default : String} (hunset : ∀ value, ¬ environment.Sets name value) :
      Fills environment (.reference name (some default)) default.toList

/-- Variables are replaced only in a text with a braced reference in it. The first of them that is
neither set nor has a default is the one that is missing. -/
inductive Replaces (environment : Environment) : List Char → Except String (List Char) → Prop
  | plain {text : List Char} (hplain : ¬ ['$', '\x7b'] <:+: text) :
      Replaces environment text (.ok text)
  | filled {text : List Char} {pieces : List Piece} {values : List (List Char)}
      (hbraced : ['$', '\x7b'] <:+: text) (hconsists : Piece.Consists text pieces)
      (hvalues : List.Forall₂ (Fills environment) pieces values) :
      Replaces environment text (.ok values.flatten)
  | unset {text : List Char} {before after : List Piece} {values : List (List Char)}
      {name : String} (hbraced : ['$', '\x7b'] <:+: text)
      (hconsists : Piece.Consists text (before ++ .reference name none :: after))
      (hvalues : List.Forall₂ (Fills environment) before values)
      (hunset : ∀ value, ¬ environment.Sets name value) :
      Replaces environment text (.error name)

section

variable {environment : Environment}

theorem Environment.sets_iff {name value : String} :
    environment.Sets name value ↔ environment.value? name = some value := by
  rw [Environment.Sets, Environment.value?]
  by_cases hname : name = ""
  · simp [hname]
  · by_cases hequals : '=' ∈ name.toList <;> simp [hname, hequals]

theorem Environment.not_sets_iff {name : String} :
    (∀ value, ¬ environment.Sets name value) ↔ environment.value? name = none := by
  simp only [Environment.sets_iff, Option.eq_none_iff_forall_ne_some, ne_eq]

theorem Fills.expand_eq {piece : Piece} {chars : List Char}
    (hfills : Fills environment piece chars) : piece.expand environment = .ok chars := by
  cases hfills with
  | text => rfl
  | set hset => simp only [Piece.expand, Environment.sets_iff.mp hset]
  | default hunset => simp only [Piece.expand, Environment.not_sets_iff.mp hunset]

theorem fills_or (environment : Environment) (piece : Piece) :
    (∃ chars, Fills environment piece chars) ∨
      ∃ name, piece = .reference name none ∧ ∀ value, ¬ environment.Sets name value := by
  cases piece with
  | text chars => exact .inl ⟨chars, .text⟩
  | reference name default =>
      cases hvalue : environment.value? name with
      | some value => exact .inl ⟨_, .set (Environment.sets_iff.mpr hvalue)⟩
      | none =>
          have hunset := Environment.not_sets_iff.mpr hvalue
          cases default with
          | some default => exact .inl ⟨_, .default hunset⟩
          | none => exact .inr ⟨name, rfl, hunset⟩

theorem expandAll_of_fills {pieces : List Piece} {values : List (List Char)}
    (hvalues : List.Forall₂ (Fills environment) pieces values) :
    Piece.expandAll environment pieces = .ok values.flatten := by
  induction hvalues with
  | nil => rfl
  | cons hfills _ ih =>
      rw [Piece.expandAll_cons, hfills.expand_eq, ih]
      rfl

theorem expandAll_of_unset {before after : List Piece} {values : List (List Char)} {name : String}
    (hvalues : List.Forall₂ (Fills environment) before values)
    (hunset : ∀ value, ¬ environment.Sets name value) :
    Piece.expandAll environment (before ++ .reference name none :: after) = .error name := by
  have hexpand : Piece.expand environment (.reference name none) = .error name := by
    simp only [Piece.expand, Environment.not_sets_iff.mp hunset]
  rw [Piece.expandAll_append, expandAll_of_fills hvalues, Piece.expandAll_cons, hexpand]
  rfl

theorem forall₂_fills_or (environment : Environment) (pieces : List Piece) :
    (∃ values, List.Forall₂ (Fills environment) pieces values) ∨
      ∃ before name after values, pieces = before ++ .reference name none :: after ∧
        List.Forall₂ (Fills environment) before values ∧
        ∀ value, ¬ environment.Sets name value := by
  induction pieces with
  | nil => exact .inl ⟨[], .nil⟩
  | cons piece pieces ih =>
      obtain ⟨chars, hfills⟩ | ⟨name, rfl, hunset⟩ := fills_or environment piece
      · obtain ⟨values, hvalues⟩ | ⟨before, name, after, values, rfl, hvalues, hunset⟩ := ih
        · exact .inl ⟨chars :: values, .cons hfills hvalues⟩
        · exact .inr ⟨piece :: before, name, after, _, rfl, .cons hfills hvalues, hunset⟩
      · exact .inr ⟨[], name, pieces, [], rfl, .nil, hunset⟩

theorem hasBracedReference_iff {text : List Char} :
    hasBracedReference text = true ↔ ['$', '\x7b'] <:+: text := by
  fun_induction hasBracedReference text with
  | case1 rest => exact iff_of_true rfl (List.prefix_append ['$', '\x7b'] rest).isInfix
  | case2 c rest hplain ih =>
      rw [ih, List.infix_cons_iff]
      refine (or_iff_right ?_).symm
      rintro ⟨later, hlater⟩
      obtain ⟨rfl, rfl⟩ := List.cons.inj hlater
      exact hplain later rfl rfl
  | case3 => simp

theorem Replaces.expandVariables_eq {text : List Char} {result : Except String (List Char)}
    (hreplaces : Replaces environment text result) : expandVariables environment text = result := by
  cases hreplaces with
  | plain hplain => rw [expandVariables, if_neg (mt hasBracedReference_iff.mp hplain)]
  | filled hbraced hconsists hvalues =>
      rw [expandVariables, if_pos (hasBracedReference_iff.mpr hbraced), hconsists.ofChars_eq le_rfl,
        expandAll_of_fills hvalues]
  | unset hbraced hconsists hvalues hunset =>
      rw [expandVariables, if_pos (hasBracedReference_iff.mpr hbraced), hconsists.ofChars_eq le_rfl,
        expandAll_of_unset hvalues hunset]

theorem exists_replaces (environment : Environment) (text : List Char) :
    ∃ result, Replaces environment text result := by
  by_cases hbraced : ['$', '\x7b'] <:+: text
  · obtain ⟨pieces, hconsists⟩ := Piece.exists_consists text
    obtain ⟨values, hvalues⟩ | ⟨before, name, after, values, rfl, hvalues, hunset⟩ :=
      forall₂_fills_or environment pieces
    · exact ⟨_, .filled hbraced hconsists hvalues⟩
    · exact ⟨_, .unset hbraced hconsists hvalues hunset⟩
  · exact ⟨_, .plain hbraced⟩

end

/-! The home directory. -/

/-- A leading tilde stands for the home directory where it is a whole component. -/
inductive Houses (home? : Option String) : List Char → List Char → Prop
  | home {home : String} {rest : List Char} (hhome : home? = some home)
      (hrest : ∀ next ∈ rest.head?, next = '/') : Houses home? ('~' :: rest) (home.toList ++ rest)
  | homeless {text : List Char} (hhome : home? = none) : Houses home? text text
  | other {text : List Char}
      (htext : ∀ rest, text = '~' :: rest → ∃ next ∈ rest.head?, next ≠ '/') :
      Houses home? text text

theorem Houses.expandHome_eq {home? : Option String} {text housed : List Char}
    (hhouses : Houses home? text housed) : expandHome home? text = housed := by
  cases hhouses with
  | @home home rest hhome hrest =>
      subst hhome
      cases rest with
      | nil => exact (List.append_nil _).symm
      | cons next rest =>
          obtain rfl := hrest next rfl
          rfl
  | homeless hhome =>
      subst hhome
      unfold expandHome
      split
      · next hsome => cases hsome
      · next hsome => cases hsome
      · rfl
  | other htext =>
      unfold expandHome
      split
      · obtain ⟨next, hnext, -⟩ := htext [] rfl
        cases hnext
      · obtain ⟨next, hnext, hother⟩ := htext _ rfl
        exact absurd (Option.some.inj hnext).symm hother
      · rfl

theorem exists_houses (home? : Option String) (text : List Char) :
    ∃ housed, Houses home? text housed := by
  cases hhome : home? with
  | none => exact ⟨text, .homeless rfl⟩
  | some home =>
      by_cases htilde : ∃ rest, text = '~' :: rest ∧ ∀ next ∈ rest.head?, next = '/'
      · obtain ⟨rest, rfl, hrest⟩ := htilde
        exact ⟨_, .home rfl hrest⟩
      · refine ⟨text, .other fun rest htext => ?_⟩
        by_contra hnone
        exact htilde ⟨rest, htext, by simpa using hnone⟩

/-! Entries. -/

section

variable {environment : Environment}

@[ext] theorem Home.ext {home other : Home environment} (hpath : home.path? = other.path?) :
    home = other := by
  obtain ⟨path?, hhome⟩ := home
  obtain ⟨others?, hother⟩ := other
  cases hpath
  rfl

/-- Where the variable is set to more than nothing, it names the home directory. -/
theorem Home.path?_of_sets (home : Home environment) {path : String}
    (hset : environment.Sets "HOME" path) (hpath : path ≠ "") : home.path? = some path := by
  apply home.of_variable
  rw [Environment.home?, Environment.sets_iff.mp hset]
  simp [hpath]

inductive Expands (home : Home environment) (entry : String) : Except String String → Prop
  | expanded {replaced housed : List Char}
      (hreplaces : Replaces environment entry.toList (.ok replaced))
      (hhouses : Houses home.path? replaced housed) :
      Expands home entry (.ok (String.ofList housed))
  | unset {name : String} (hreplaces : Replaces environment entry.toList (.error name)) :
      Expands home entry (.error name)

theorem Expands.expandEntry_eq {home : Home environment} {entry : String}
    {result : Except String String} (hexpands : Expands home entry result) :
    expandEntry home entry = result := by
  cases hexpands with
  | expanded hreplaces hhouses =>
      rw [expandEntry, hreplaces.expandVariables_eq]
      exact congrArg (fun housed => Except.ok (String.ofList housed)) hhouses.expandHome_eq
  | unset hreplaces =>
      rw [expandEntry, hreplaces.expandVariables_eq]
      rfl

theorem exists_expands (home : Home environment) (entry : String) :
    ∃ result, Expands home entry result := by
  obtain ⟨name | replaced, hreplaces⟩ := exists_replaces environment entry.toList
  · exact ⟨_, .unset hreplaces⟩
  · obtain ⟨housed, hhouses⟩ := exists_houses home.path? _
    exact ⟨_, .expanded hreplaces hhouses⟩

/-- Whatever else is known about the user, the variable is what a tilde stands for. -/
theorem expands_tilde (home : Home environment) {path : String}
    (hset : environment.Sets "HOME" path) (hpath : path ≠ "") {rest : List Char}
    (hplain : ¬ ['$', '\x7b'] <:+: rest) (hrest : ∀ next ∈ rest.head?, next = '/') :
    Expands home (String.ofList ('~' :: rest)) (.ok (path ++ String.ofList rest)) := by
  have htilde : ¬ ['$', '\x7b'] <:+: '~' :: rest := by
    rw [List.infix_cons_iff, not_or]
    exact ⟨by simp, hplain⟩
  have hreplaces : Replaces environment (String.ofList ('~' :: rest)).toList
      (.ok ('~' :: rest)) := by
    rw [String.toList_ofList]
    exact .plain htilde
  have hhouses : Houses home.path? ('~' :: rest) (path.toList ++ rest) :=
    .home (home.path?_of_sets hset hpath) hrest
  have hexpands := Expands.expanded hreplaces hhouses
  rwa [String.ofList_append, String.ofList_toList] at hexpands

/-- Entries come to what the rules say, and to nothing else. -/
theorem expandEntry_eq_iff {home : Home environment} {entry : String}
    {result : Except String String} :
    expandEntry home entry = result ↔ Expands home entry result := by
  constructor
  · rintro rfl
    obtain ⟨result, hexpands⟩ := exists_expands home entry
    rwa [hexpands.expandEntry_eq]
  · exact Expands.expandEntry_eq

end

end CanonicalMarkdown.Settings
