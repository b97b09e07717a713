import LiveCoding.Proofs.Settings.Outcome
import LiveCoding.Proofs.Settings.Written

/-!
# Switches among other flags

A key without a value takes the token behind it as its value, unless that token begins with
two dashes.  So a switch in its long form is never taken as a value, wherever it stands; the
one switch that has a short form can be.

## Main Definitions

* `Flags.Names`: a token that begins with the name of a flag.
* `Flags.Wants`: tokens behind which a value may be taken.

## Main Statements

* `Flags.mem_given_iff`: which tokens turn a switch on.
* `Flags.ofTokens_switches`: when a list of tokens turns each switch on.
* `Flags.ofTokens_short_form_taken`: the short form, taken as a host.

## Design Notes

Names of keys begin with two dashes, so no key is ever taken as a value, and whether a token
is taken depends on no more than the token in front of it.
-/

namespace LiveCoding

namespace Flags

/-- The name of a flag, alone or with a value behind an equals sign. -/
def Names (name : String) (token : Token) : Prop :=
  token = name.toList ∨ ∃ value, token = name.toList ++ '=' :: value

/-- Tokens that end with a key that has no value yet. -/
def Wants (before : List Token) : Prop :=
  ∃ key : Key, before.getLast? = some key.name.toList

/-- The long form of a switch. -/
def Switch.name : Switch → String
  | .noLanguageServer => noLanguageServerName
  | .quiet => quietName

variable {token : Token} {tokens front other rest : List Token} {key : Key} {switch : Switch}

/-! ### What a token says -/

/-- A token has the name of a long flag if it begins with it. -/
theorem nameAndValue_eq_iff {name : String} (long : Token.isLong name.toList = true)
    (whole : '=' ∉ name.toList) : (Token.nameAndValue token).1 = name.toList ↔
      Names name token := by
  constructor
  · intro h
    rw [Token.nameAndValue] at h
    split at h
    next hsplit =>
      obtain ⟨-, rfl⟩ := splitFirst?_eq_some_iff.mp hsplit
      split at h
      · exact Or.inr ⟨_, congrArg (· ++ _) h⟩
      · exact Or.inl h
    next => exact Or.inl h
  · rintro (rfl | ⟨value, rfl⟩)
    · rw [Token.nameAndValue, splitFirst?_of_not_mem whole]
    · rw [Token.nameAndValue, splitFirst?_append whole]
      dsimp only
      rw [if_pos long]

/-- A token has a short name if it is that name. -/
theorem nameAndValue_eq_short_iff {name : Token} (short : Token.isLong name = false)
    (whole : '=' ∉ name) : (Token.nameAndValue token).1 = name ↔ token = name := by
  constructor
  · intro h
    rw [Token.nameAndValue] at h
    split at h
    · split at h
      next long =>
        dsimp only at h
        rw [h, short] at long
        contradiction
      next => exact h
    next => exact h
  · rintro rfl
    rw [Token.nameAndValue, splitFirst?_of_not_mem whole]

/-- **A token turns a switch on** if it is named like it, in the long form or in the short
one. -/
theorem word_eq_complete_iff : word token = .complete switch.setting ↔
    Names switch.name token ∨ switch = .quiet ∧ token = quietShortName.toList := by
  have short := @nameAndValue_eq_short_iff token quietShortName.toList (by decide) (by decide)
  rw [← nameAndValue_eq_iff (by cases switch <;> decide) (by cases switch <;> decide), ← short,
    word]
  generalize Token.nameAndValue token = cut
  obtain ⟨name, value?⟩ := cut
  dsimp only
  by_cases server : name = noLanguageServerName.toList
  · rw [if_pos server, server]
    cases switch <;> decide
  rw [if_neg server]
  by_cases quiet : name = quietName.toList ∨ name = quietShortName.toList
  · have found : (decide (name = quietName.toList) || decide (name = quietShortName.toList)) =
        true := by simpa using quiet
    rw [if_pos found]
    cases switch with
    | noLanguageServer => simpa [Switch.name, Switch.setting] using server
    | quiet => simpa [Switch.name, Switch.setting] using quiet
  · have missing : ¬ (decide (name = quietName.toList) ||
        decide (name = quietShortName.toList)) = true := by simpa using quiet
    rw [if_neg missing]
    obtain ⟨long, short⟩ := not_or.mp quiet
    cases switch <;> cases Key.ofName? name <;> cases value? <;>
      simp [Switch.name, Switch.setting, server, long, short]

/-- A token is a key that wants its value if it is the name of that key. -/
theorem word_eq_wanting_iff : word token = .wanting key ↔ token = key.name.toList := by
  constructor
  · intro h
    have named : (Token.nameAndValue token).1 = key.name.toList ∧
        (Token.nameAndValue token).2 = none := by
      rw [word] at h
      generalize Token.nameAndValue token = cut at h
      obtain ⟨name, value?⟩ := cut
      dsimp only at h ⊢
      split at h
      · contradiction
      split at h
      · contradiction
      split at h
      · contradiction
      · contradiction
      next found =>
        obtain rfl := Word.wanting.inj h
        exact ⟨ofName?_eq_some_iff.mp found, rfl⟩
    rcases (nameAndValue_eq_iff (by cases key <;> decide) (by cases key <;> decide)).mp named.1
      with found | ⟨value, rfl⟩
    · exact found
    · have complete := word_name_value key value
      rw [h] at complete
      contradiction
  · rintro rfl
    exact word_name key

/-- A key is never taken as a value. -/
theorem word_ne_wanting_of_short (short : Token.isLong token = false) (key : Key) :
    word token ≠ .wanting key := by
  intro h
  rw [word_eq_wanting_iff.mp h] at short
  cases key <;> contradiction

/-! ### What stands in front of a token -/

theorem not_wants_nil : ¬ Wants [] := by
  rintro ⟨key, h⟩
  contradiction

theorem wants_concat_iff : Wants (front ++ [token]) ↔ ∃ key, word token = .wanting key := by
  refine exists_congr fun key => ?_
  rw [word_eq_wanting_iff, List.getLast?_concat, Option.some.injEq]

theorem wants_singleton_iff : Wants [token] ↔ ∃ key, word token = .wanting key :=
  @wants_concat_iff token []

/-- Only the last token counts. -/
theorem wants_append_congr (h : Wants front ↔ Wants other) (before : List Token) :
    Wants (front ++ before) ↔ Wants (other ++ before) := by
  rcases List.eq_nil_or_concat before with rfl | ⟨before, token, rfl⟩
  · rwa [List.append_nil, List.append_nil]
  · rw [List.concat_eq_append, ← List.append_assoc, ← List.append_assoc, wants_concat_iff,
      wants_concat_iff]

/-- A token behind some others turns a switch on: it says so, and is not taken as a value. -/
def TurnsOn (switch : Switch) (before : List Token) (token : Token) : Prop :=
  word token = .complete switch.setting ∧ (Token.isLong token = true ∨ ¬ Wants before)

/-- One of the tokens behind `front` turns a switch on. -/
def SomeTurnsOn (switch : Switch) (front tokens : List Token) : Prop :=
  ∃ before token rest, tokens = before ++ token :: rest ∧ TurnsOn switch (front ++ before) token

theorem someTurnsOn_congr (h : Wants front ↔ Wants other) :
    SomeTurnsOn switch front tokens ↔ SomeTurnsOn switch other tokens := by
  unfold SomeTurnsOn TurnsOn
  simp only [wants_append_congr h]

/-- The first token turns the switch on, or one of the others does behind it. -/
theorem someTurnsOn_cons_iff : SomeTurnsOn switch front (token :: rest) ↔
    TurnsOn switch front token ∨ SomeTurnsOn switch (front ++ [token]) rest := by
  constructor
  · rintro ⟨_ | ⟨first, before⟩, next, later, h, turns⟩
    · obtain ⟨rfl, -⟩ := List.cons.inj h
      rw [List.append_nil] at turns
      exact Or.inl turns
    · obtain ⟨rfl, hrest⟩ := List.cons.inj h
      rw [List.append_cons] at turns
      exact Or.inr ⟨before, next, later, hrest, turns⟩
  · rintro (turns | ⟨before, next, later, rfl, turns⟩)
    · exact ⟨[], token, rest, rfl, by rwa [List.append_nil]⟩
    · rw [List.append_assoc] at turns
      exact ⟨token :: before, next, later, rfl, turns⟩

theorem turnsOn_nil_iff : TurnsOn switch [] token ↔ word token = .complete switch.setting :=
  and_iff_left (Or.inr not_wants_nil)

theorem not_someTurnsOn_nil : ¬ SomeTurnsOn switch front [] := by
  rintro ⟨before, token, rest, h, -⟩
  exact absurd h.symm (List.append_ne_nil_of_right_ne_nil _ (List.cons_ne_nil _ _))

/-- Behind a token that wants no value all is as at the beginning. -/
theorem someTurnsOn_of_not_wanting (h : ∀ key, word token ≠ .wanting key) (front : List Token) :
    SomeTurnsOn switch (front ++ [token]) rest ↔ SomeTurnsOn switch [] rest := by
  refine someTurnsOn_congr (iff_of_false ?_ not_wants_nil)
  rw [wants_concat_iff]
  exact fun ⟨key, hkey⟩ => h key hkey

/-- A key turns no switch on. -/
theorem someTurnsOn_cons_of_wanting (h : word token = .wanting key) :
    SomeTurnsOn switch [] (token :: rest) ↔ SomeTurnsOn switch [token] rest := by
  rw [someTurnsOn_cons_iff, turnsOn_nil_iff, h]
  exact or_iff_right Word.noConfusion

/-- **Which tokens turn a switch on.** -/
theorem mem_given_iff : switch.setting ∈ given tokens ↔ SomeTurnsOn switch [] tokens := by
  induction tokens using given.induct with
  | case1 => exact iff_of_false List.not_mem_nil not_someTurnsOn_nil
  | case2 token rest setting hword ih =>
    have behind : SomeTurnsOn switch ([] ++ [token]) rest ↔ SomeTurnsOn switch [] rest :=
      someTurnsOn_of_not_wanting (by simp [hword]) []
    rw [given_complete hword, List.mem_cons, someTurnsOn_cons_iff, turnsOn_nil_iff, behind, hword,
      Word.complete.injEq, eq_comm (a := setting), ih]
  | case3 token rest hword ih =>
    have behind : SomeTurnsOn switch ([] ++ [token]) rest ↔ SomeTurnsOn switch [] rest :=
      someTurnsOn_of_not_wanting (by simp [hword]) []
    rw [given_other hword, someTurnsOn_cons_iff, turnsOn_nil_iff, behind, hword, ih]
    exact (or_iff_right Word.noConfusion).symm
  | case4 token key hword =>
    rw [given_wanting_nil hword, someTurnsOn_cons_of_wanting hword]
    exact iff_of_false List.not_mem_nil not_someTurnsOn_nil
  | case5 token key hword next later long ih =>
    -- the key stays without a value, and the flag behind it counts as if it stood first
    have first : TurnsOn switch [] next ↔ TurnsOn switch [token] next :=
      and_congr_right fun _ => iff_of_true (Or.inl long) (Or.inl long)
    have last : Wants [next] ↔ Wants [token, next] :=
      wants_singleton_iff.trans (@wants_concat_iff next [token]).symm
    rw [given_wanting_long hword long, ih, someTurnsOn_cons_of_wanting hword]
    calc SomeTurnsOn switch [] (next :: later)
        ↔ TurnsOn switch [] next ∨ SomeTurnsOn switch [next] later := someTurnsOn_cons_iff
      _ ↔ TurnsOn switch [token] next ∨ SomeTurnsOn switch [token, next] later :=
          or_congr first (someTurnsOn_congr last)
      _ ↔ SomeTurnsOn switch [token] (next :: later) := someTurnsOn_cons_iff.symm
  | case6 token key hword next later long ih =>
    have short : Token.isLong next = false := Bool.eq_false_iff.mpr long
    have taken : ¬ TurnsOn switch [token] next := by
      rintro ⟨-, free | free⟩
      · exact long free
      · exact free (wants_singleton_iff.mpr ⟨key, hword⟩)
    have behind : SomeTurnsOn switch [token, next] later ↔ SomeTurnsOn switch [] later :=
      someTurnsOn_of_not_wanting (word_ne_wanting_of_short short) [token]
    rw [given_wanting_value hword short, List.mem_cons, ih, someTurnsOn_cons_of_wanting hword,
      someTurnsOn_cons_iff]
    refine or_congr (iff_of_false ?_ taken) behind.symm
    cases switch <;> exact Setting.noConfusion

/-! ### Lists of tokens -/

theorem isOn_ofTokens_iff (switch : Switch) (tokens : List Token) :
    (ofTokens tokens).isOn switch = true ↔ SomeTurnsOn switch [] tokens := by
  rw [ofTokens_eq, isOn_foldl_iff, isOn_empty, mem_given_iff]
  exact or_iff_right Bool.false_ne_true

/-- A token in the long form is never taken as a value. -/
theorem isLong_of_names {name : String} (long : Token.isLong name.toList = true)
    (h : Names name token) : Token.isLong token = true := by
  rw [isLong_iff] at long ⊢
  rcases h with rfl | ⟨value, rfl⟩
  · exact long
  · exact long.trans (List.prefix_append _ _)

/-- **When a switch is on**: it is there in its long form, or it is there in its short form
and not right behind a key without a value. -/
theorem someTurnsOn_iff : SomeTurnsOn switch [] tokens ↔
    (∃ token ∈ tokens, Names switch.name token) ∨
      switch = .quiet ∧ ∃ before rest, tokens = before ++ quietShortName.toList :: rest ∧
        ∀ key : Key, before.getLast? ≠ some key.name.toList := by
  have longName : Token.isLong switch.name.toList = true := by cases switch <;> decide
  constructor
  · rintro ⟨before, token, rest, rfl, hword, free⟩
    rcases word_eq_complete_iff.mp hword with named | ⟨rfl, rfl⟩
    · exact Or.inl ⟨token, List.mem_append_right _ List.mem_cons_self, named⟩
    · refine Or.inr ⟨rfl, before, rest, rfl, ?_⟩
      rcases free with long | free
      · exact absurd long (by decide)
      · exact fun key hkey => free ⟨key, hkey⟩
  · rintro (⟨token, hmem, named⟩ | ⟨rfl, before, rest, rfl, free⟩)
    · obtain ⟨before, rest, rfl⟩ := List.append_of_mem hmem
      exact ⟨before, token, rest, rfl, word_eq_complete_iff.mpr (Or.inl named),
        Or.inl (isLong_of_names longName named)⟩
    · exact ⟨before, _, rest, rfl, word_eq_complete_iff.mpr (Or.inr ⟨rfl, rfl⟩),
        Or.inr fun ⟨key, hkey⟩ => free key hkey⟩

/-- **Long forms of switches are never taken as values**, wherever they stand and whatever
stands around them.  The short form of the switch for silence is taken exactly where it
stands right behind a key without a value. -/
theorem ofTokens_switches (tokens : List Token) :
    ((ofTokens tokens).noLanguageServer = true ↔
      ∃ token ∈ tokens, Names noLanguageServerName token) ∧
    ((ofTokens tokens).quiet = true ↔
      (∃ token ∈ tokens, Names quietName token) ∨
        ∃ before rest, tokens = before ++ quietShortName.toList :: rest ∧
          ∀ key : Key, before.getLast? ≠ some key.name.toList) := by
  have server := (isOn_ofTokens_iff .noLanguageServer tokens).trans someTurnsOn_iff
  have quiet := (isOn_ofTokens_iff .quiet tokens).trans someTurnsOn_iff
  constructor
  · refine server.trans (or_iff_left ?_)
    rintro ⟨h, -⟩
    contradiction
  · exact quiet.trans (or_congr_right (and_iff_right rfl))

/-- Behind the key of a host, the short form becomes the host, and output stays on. -/
theorem ofTokens_short_form_taken :
    quietShortName.toList ∈ ["--osc-host".toList, quietShortName.toList] ∧
      ofTokens ["--osc-host".toList, quietShortName.toList] = { oscHost := some "-q" } := by
  decide

end Flags

end LiveCoding
