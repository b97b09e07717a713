import LiveCoding.Proofs.Text.Numeral
import LiveCoding.Proofs.Text.Pieces
import LiveCoding.Settings.Token

/-!
# Flags given one by one

What a list of tokens gives is a list of single settings (`Flags.given`), which are put
into force in their order.  So flags can be told from the settings that made them, and a
value that they hold must have been in one of the tokens.

## Main Definitions

* `Flags.Setting`: a single setting, and `Flags.Setting.apply`: what it does.
* `Flags.Word`: what a token says by itself.
* `Flags.given`: the settings that tokens give.
* `Flags.Stands`: a value of a key among tokens.
* `Flags.text?`, `Flags.port?`: the value of a key in flags.

## Main Statements

* `Flags.putTokens_eq`: tokens do what the settings in them do.
* `Flags.given_append`, `Flags.given_flatten`: no key takes its value from tokens that begin
  with a flag.
* `Flags.stands_of_mem_given`: a value that is given stands among the tokens.
-/

namespace LiveCoding

namespace Flags

/-- A single setting. -/
inductive Setting where
  | value (key : Key) (token : Token)
  | noLanguageServer
  | quiet
deriving DecidableEq

/-- What a setting does to flags. -/
def Setting.apply (flags : Flags) : Setting → Flags
  | .value key token => flags.put key token
  | .noLanguageServer => { flags with noLanguageServer := true }
  | .quiet => { flags with quiet := true }

/-- What a token says by itself. -/
inductive Word where
  /-- All of a setting. -/
  | complete (setting : Setting)
  /-- A key that wants its value. -/
  | wanting (key : Key)
  /-- Nothing that is a flag. -/
  | other
deriving DecidableEq

/-- What a token says. -/
def word (token : Token) : Word :=
  let (name, value?) := Token.nameAndValue token
  if name = noLanguageServerName.toList then .complete .noLanguageServer
  else if name = quietName.toList || name = quietShortName.toList then .complete .quiet
  else
    match Key.ofName? name, value? with
    | none, _ => .other
    | some key, some value => .complete (.value key value)
    | some key, none => .wanting key

/-- The settings that tokens give, in their order. -/
def given : List Token → List Setting
  | [] => []
  | token :: rest =>
    match word token with
    | .complete setting => setting :: given rest
    | .other => given rest
    | .wanting key =>
      match rest with
      | [] => []
      | next :: later =>
        if Token.isLong next then given (next :: later) else .value key next :: given later

variable {flags : Flags} {key : Key} {token value : Token} {tokens rest : List Token}
variable {setting : Setting}

/-! ### Tokens and settings -/

theorem putTokens_cons (flags : Flags) (token : Token) (rest : List Token) :
    flags.putTokens (token :: rest) =
      match word token with
      | .complete setting => (setting.apply flags).putTokens rest
      | .other => flags.putTokens rest
      | .wanting key =>
        match rest with
        | [] => flags
        | next :: later =>
          if Token.isLong next then flags.putTokens (next :: later)
          else (flags.put key next).putTokens later := by
  rw [putTokens, word]
  generalize Token.nameAndValue token = cut
  obtain ⟨name, value?⟩ := cut
  dsimp only
  split
  · rfl
  · split
    · rfl
    · cases Key.ofName? name with
      | none => rfl
      | some key => cases value? <;> rfl

theorem given_complete (h : word token = .complete setting) (rest : List Token) :
    given (token :: rest) = setting :: given rest := by
  rw [given, h]

theorem given_other (h : word token = .other) (rest : List Token) :
    given (token :: rest) = given rest := by
  rw [given, h]

theorem given_wanting_nil (h : word token = .wanting key) : given [token] = [] := by
  rw [given, h]

theorem given_wanting_long {next : Token} (h : word token = .wanting key)
    (long : Token.isLong next = true) (later : List Token) :
    given (token :: next :: later) = given (next :: later) := by
  rw [given, h]
  exact if_pos long

theorem given_wanting_value (h : word token = .wanting key) (short : Token.isLong value = false)
    (later : List Token) : given (token :: value :: later) = .value key value :: given later := by
  rw [given, h]
  exact if_neg (Bool.eq_false_iff.mp short)

/-- No key takes its value from tokens that begin with a flag. -/
theorem given_append (first : List Token) {second : List Token}
    (h : ∀ token ∈ second.head?, Token.isLong token = true) :
    given (first ++ second) = given first ++ given second := by
  induction first using given.induct with
  | case1 => rfl
  | case2 token rest setting hword ih =>
    rw [List.cons_append, given_complete hword, given_complete hword, ih, List.cons_append]
  | case3 token rest hword ih =>
    rw [List.cons_append, given_other hword, given_other hword, ih]
  | case4 token key hword =>
    rw [given_wanting_nil hword, List.nil_append]
    cases second with
    | nil => exact given_wanting_nil hword
    | cons next later => exact given_wanting_long hword (h next rfl) later
  | case5 token key hword next later long ih =>
    rw [List.cons_append, List.cons_append, given_wanting_long hword long,
      given_wanting_long hword long]
    exact ih
  | case6 token key hword next later long ih =>
    have short : Token.isLong next = false := Bool.eq_false_iff.mpr long
    rw [List.cons_append, List.cons_append, given_wanting_value hword short,
      given_wanting_value hword short, ih, List.cons_append]

/-- Lists of tokens that begin with a flag do so together. -/
theorem isLong_of_mem_head?_flatten {lists : List (List Token)}
    (h : ∀ tokens ∈ lists, ∀ token ∈ tokens.head?, Token.isLong token = true) :
    ∀ token ∈ lists.flatten.head?, Token.isLong token = true := by
  induction lists with
  | nil => nofun
  | cons tokens lists ih =>
    obtain ⟨htokens, hlists⟩ := List.forall_mem_cons.mp h
    intro token htoken
    rw [List.flatten_cons, List.head?_append] at htoken
    rcases Option.or_eq_some_iff.mp htoken with found | ⟨-, found⟩
    · exact htokens token found
    · exact ih hlists token found

/-- **Lists of tokens give their settings each by itself** if all but the first begin with a
flag. -/
theorem given_flatten {lists : List (List Token)}
    (h : ∀ tokens ∈ lists.tail, ∀ token ∈ tokens.head?, Token.isLong token = true) :
    given lists.flatten = lists.flatMap given := by
  induction lists with
  | nil => rfl
  | cons tokens lists ih =>
    have long : ∀ token ∈ lists.flatten.head?, Token.isLong token = true :=
      isLong_of_mem_head?_flatten h
    rw [List.flatten_cons, List.flatMap_cons, given_append tokens long]
    exact congrArg _ (ih fun other hother => h other (List.mem_of_mem_tail hother))

/-- **Tokens do what the settings in them do**, one after the other. -/
theorem putTokens_eq (flags : Flags) (tokens : List Token) :
    flags.putTokens tokens = (given tokens).foldl Setting.apply flags := by
  induction tokens using given.induct generalizing flags with
  | case1 => rfl
  | case2 token rest setting h ih =>
    rw [putTokens_cons, given_complete h, h]
    exact ih _
  | case3 token rest h ih =>
    rw [putTokens_cons, given_other h, h]
    exact ih _
  | case4 token key h =>
    rw [putTokens_cons, given_wanting_nil h, h]
    rfl
  | case5 token key h next later long ih =>
    rw [putTokens_cons, given_wanting_long h long, h]
    dsimp only
    rw [if_pos long]
    exact ih _
  | case6 token key h next later long ih =>
    rw [putTokens_cons, given_wanting_value h (Bool.eq_false_iff.mpr long), h]
    dsimp only
    rw [if_neg long]
    exact ih _

theorem ofTokens_eq (tokens : List Token) :
    ofTokens tokens = (given tokens).foldl Setting.apply {} :=
  putTokens_eq {} tokens

/-- Tokens that begin with a flag do on top of others what the settings in them do. -/
theorem ofTokens_append (first : List Token) {second : List Token}
    (h : ∀ token ∈ second.head?, Token.isLong token = true) :
    ofTokens (first ++ second) = (given second).foldl Setting.apply (ofTokens first) := by
  rw [ofTokens_eq, ofTokens_eq, given_append first h, List.foldl_append]

/-! ### Words -/

theorem ofName?_eq_some_iff {name : Token} : Key.ofName? name = some key ↔
    name = key.name.toList := by
  constructor
  · intro h
    have found := List.find?_some h
    exact (beq_iff_eq.mp found).symm
  · rintro rfl
    cases key <;> decide

theorem word_name (key : Key) : word key.name.toList = .wanting key := by
  cases key <;> decide

/-- A key with its value behind an equals sign. -/
theorem word_name_value (key : Key) (value : Token) :
    word (key.name.toList ++ '=' :: value) = .complete (.value key value) := by
  have cut : Token.nameAndValue (key.name.toList ++ '=' :: value) =
      (key.name.toList, some value) := by
    rw [Token.nameAndValue, splitFirst?_append (by cases key <;> decide)]
    exact if_pos (by cases key <;> decide)
  rw [word, cut]
  cases key <;> rfl

/-- A value that a token gives by itself stands behind an equals sign. -/
theorem word_eq_complete_value_iff : word token = .complete (.value key value) ↔
    token = key.name.toList ++ '=' :: value := by
  constructor
  · intro h
    rw [word] at h
    cases cut : Token.nameAndValue token with
    | mk name value? =>
      rw [cut] at h
      dsimp only at h
      split at h
      · simp at h
      · split at h
        · simp at h
        · split at h
          · contradiction
          next found =>
            obtain ⟨rfl, rfl⟩ : _ = key ∧ _ = value := by simpa using h
            obtain rfl := ofName?_eq_some_iff.mp found
            rw [Token.nameAndValue] at cut
            split at cut
            next hsplit =>
              split at cut
              · obtain ⟨rfl, hvalue⟩ := Prod.mk.inj cut
                obtain rfl := Option.some.inj hvalue
                exact (splitFirst?_eq_some_iff.mp hsplit).2
              · simp at cut
            next => simp at cut
          · contradiction
  · rintro rfl
    exact word_name_value key value

/-! ### Where a value comes from -/

/-- A value of a key among tokens: behind the name of the key and an equals sign, or as a
token of its own that does not begin with two dashes. -/
def Stands (key : Key) (value : Token) (tokens : List Token) : Prop :=
  key.name.toList ++ '=' :: value ∈ tokens ∨ value ∈ tokens ∧ Token.isLong value = false

theorem Stands.mono (h : Stands key value rest) (subset : rest ⊆ tokens) :
    Stands key value tokens :=
  h.imp (fun h => subset h) (And.imp_left fun h => subset h)

/-- **A value that is given stands among the tokens.** -/
theorem stands_of_mem_given (h : .value key value ∈ given tokens) : Stands key value tokens := by
  induction tokens using given.induct with
  | case1 => contradiction
  | case2 token rest setting hword ih =>
    rw [given_complete hword] at h
    rcases List.mem_cons.mp h with rfl | h
    · obtain rfl := word_eq_complete_value_iff.mp hword
      exact Or.inl List.mem_cons_self
    · exact (ih h).mono (List.subset_cons_self _ _)
  | case3 token rest hword ih =>
    rw [given_other hword] at h
    exact (ih h).mono (List.subset_cons_self _ _)
  | case4 token other hword =>
    rw [given_wanting_nil hword] at h
    contradiction
  | case5 token other hword next later long ih =>
    rw [given_wanting_long hword long] at h
    exact (ih h).mono (List.subset_cons_self _ _)
  | case6 token other hword next later long ih =>
    have short : Token.isLong next = false := Bool.eq_false_iff.mpr long
    rw [given_wanting_value hword short] at h
    rcases List.mem_cons.mp h with hvalue | h
    · obtain ⟨-, rfl⟩ := Setting.value.inj hvalue
      exact Or.inr ⟨List.mem_cons_of_mem _ List.mem_cons_self, short⟩
    · exact (ih h).mono
        (List.subset_cons_of_subset _ (List.subset_cons_of_subset _ (List.Subset.refl _)))

/-- The text of a key, if it has one. -/
def text? (flags : Flags) : Key → Option Token
  | .sclangPath => flags.sclangPath.map String.toList
  | .oscHost => flags.oscHost.map String.toList
  | .oscPort | .languageServerPort => none

/-- The port of a key, if it has one. -/
def port? (flags : Flags) : Key → Option Int
  | .sclangPath | .oscHost => none
  | .oscPort => flags.oscPort
  | .languageServerPort => flags.languageServerPort

end Flags

end LiveCoding
