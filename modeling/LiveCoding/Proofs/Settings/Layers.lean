import LiveCoding.Proofs.Settings.Outcome
import LiveCoding.Proofs.Settings.Store
import Mathlib.Data.List.Forall2
import Mathlib.Data.List.Induction

/-!
# Layers

Settings are given in layers, and a layer can also be written behind another one in the same
text.  That comes to the same as long as the later one begins with a flag, so that nothing in
it is taken as a value of the earlier one, and as long as its ports are numbers.  A port that
is no number takes away the one that an earlier layer gave.

## Main Definitions

* `Flags.FollowsOn`: tokens that can be written behind others.

## Main Statements

* `Flags.ofTokens_flatten`, `Flags.ofText_intercalate`: tokens, and texts, behind each other.
* `Flags.unionAll_eq_findSome?`, `Flags.isOn_unionAll`: what layers come to, value by value.
* `Flags.ofTokens_unreadable_port`: what a port that is no number changes.
* `Store.load_joined`: a file of joined texts is loaded as the union of the single files.
-/

namespace LiveCoding

namespace Flags

/-- A setting that is understood: a port that it gives is a number. -/
def Setting.isReadable : Setting → Bool
  | .value key token => !key.isPort || (readSigned? token).isSome
  | .noLanguageServer | .quiet => true

/-- Tokens that can be written behind others: they begin with a flag if there are any, and
the ports that they give are numbers. -/
structure FollowsOn (tokens : List Token) : Prop where
  long : ∀ token ∈ tokens.head?, Token.isLong token = true
  readable : ∀ setting ∈ given tokens, setting.isReadable = true

instance (tokens : List Token) : Decidable (FollowsOn tokens) :=
  decidable_of_iff ((∀ token ∈ tokens.head?, Token.isLong token = true) ∧
    ∀ setting ∈ given tokens, setting.isReadable = true) ⟨fun h => ⟨h.1, h.2⟩, fun h => ⟨h.1, h.2⟩⟩

variable {flags : Flags} {key : Key} {value : Token} {first rest : List Token}

/-! ### Layers behind each other -/

/-- Layers whose ports are numbers are put on top of any others. -/
theorem foldl_given_eq {lists : List (List Token)} (h : ∀ tokens ∈ lists, FollowsOn tokens)
    (flags : Flags) : (lists.flatMap given).foldl Setting.apply flags =
      (lists.map ofTokens).foldl union flags := by
  induction lists generalizing flags with
  | nil => rfl
  | cons tokens lists ih =>
    obtain ⟨htokens, hlists⟩ := List.forall_mem_cons.mp h
    have layer : (given tokens).foldl Setting.apply flags = flags.union (ofTokens tokens) := by
      rw [ofTokens_eq]
      refine foldl_eq_union fun key hkey => Or.inr fun value hvalue => ?_
      have readable := htokens.readable _ (mem_of_lastValue? hvalue)
      rwa [Setting.isReadable, hkey, Bool.not_true, Bool.false_or] at readable
    rw [List.flatMap_cons, List.foldl_append, layer, ih hlists]
    rfl

/-- **Tokens behind each other come to the union of their layers.** -/
theorem ofTokens_flatten {lists : List (List Token)}
    (h : ∀ tokens ∈ lists.tail, FollowsOn tokens) :
    ofTokens lists.flatten = unionAll (lists.map ofTokens) := by
  rw [ofTokens_eq, given_flatten fun tokens htokens => (h tokens htokens).long]
  cases lists with
  | nil => rfl
  | cons first lists =>
    have bottom : union {} (ofTokens first) = ofTokens first := by
      refine eq_of_keys ?_ ?_ ?_
      · intro key
        rw [text?_union, text?_empty, Option.or_none]
      · intro key
        rw [port?_union, port?_empty, Option.or_none]
      · intro switch
        rw [isOn_union, isOn_empty, Bool.false_or]
    have later := foldl_given_eq h (ofTokens first)
    rw [List.tail_cons] at later
    rw [List.flatMap_cons, List.foldl_append, ← ofTokens_eq, later, unionAll, List.map_cons,
      List.foldl_cons, bottom]

/-! ### Texts behind each other -/

/-- What stands in the last row may be followed by a line feed. -/
theorem flatMap_rowTokens_concat (row text : List Char) :
    (rowsFrom row [] (text ++ ['\n'])).flatMap rowTokens =
      (rowsFrom row [] text).flatMap rowTokens := by
  induction text generalizing row with
  | nil =>
    have last : rowTokens (dropReturn row).reverse = rowTokens row.reverse := by
      unfold dropReturn
      split
      next row =>
        rw [List.reverse_cons, rowTokens, rowTokens, trim_concat (by decide)]
      next => rfl
    cases row with
    | nil => rfl
    | cons c row => simpa [rowsFrom] using last
  | cons c text ih =>
    rw [List.cons_append, rowsFrom, rowsFrom]
    split
    · rw [rowsFrom_found, rowsFrom_found _ [_] text, List.flatMap_append, ih, List.flatMap_append]
    · exact ih _

/-- A line feed at the end of a text changes nothing. -/
theorem tokens_concat_newline (text : List Char) : tokens (text ++ ['\n']) = tokens text := by
  rw [tokens_eq, tokens_eq]
  exact flatMap_rowTokens_concat [] text

/-- **The tokens of joined texts** are those of one text after the other. -/
theorem tokens_intercalate (texts : List (List Char)) :
    tokens (['\n'].intercalate texts) = (texts.map tokens).flatten := by
  induction texts with
  | nil => rfl
  | cons text texts ih =>
    cases texts with
    | nil => rw [List.intercalate_singleton]; exact (List.append_nil _).symm
    | cons next texts =>
      rw [List.intercalate_cons_cons, List.append_assoc, List.singleton_append, tokens_append,
        tokens_concat_newline, ih]
      rfl

/-- **Joined texts come to the union of their layers.** -/
theorem ofText_intercalate {texts : List (List Char)}
    (h : ∀ text ∈ texts.tail, FollowsOn (tokens text)) :
    ofText (['\n'].intercalate texts) = unionAll (texts.map ofText) := by
  have follow : ∀ list ∈ (texts.map tokens).tail, FollowsOn list := by
    rw [← List.map_tail]
    exact List.forall_mem_map.mpr h
  rw [ofText, tokens_intercalate, ofTokens_flatten follow, List.map_map]
  rfl

/-! ### What layers come to -/

theorem unionAll_concat (layers : List Flags) (layer : Flags) :
    unionAll (layers ++ [layer]) = (unionAll layers).union layer :=
  List.foldl_concat _ _ _ _

/-- **A value comes from the last layer that gives one.** -/
theorem unionAll_eq_findSome? {α : Type} (value? : Flags → Option α) (empty : value? {} = none)
    (top : ∀ flags later : Flags, value? (flags.union later) = (value? later).or (value? flags))
    (layers : List Flags) : value? (unionAll layers) = layers.reverse.findSome? value? := by
  induction layers using List.reverseRecOn with
  | nil => exact empty
  | append_singleton layers layer ih =>
    rw [unionAll_concat, top, List.reverse_concat, List.findSome?_cons, ih]
    cases value? layer <;> rfl

/-- **A switch is on if any layer turns it on.** -/
theorem isOn_unionAll (switch : Switch) (layers : List Flags) :
    (unionAll layers).isOn switch = layers.any (·.isOn switch) := by
  induction layers using List.reverseRecOn with
  | nil => exact isOn_empty switch
  | append_singleton layers layer ih =>
    rw [unionAll_concat, isOn_union, ih, List.any_append, List.any_cons, List.any_nil,
      Bool.or_false]

/-! ### Ports that are no numbers -/

/-- A port that is no number takes away the one in front of it, and what stands behind it goes
on top. -/
theorem ofTokens_append_unreadable (hkey : key.isPort = true) (hvalue : readSigned? value = none)
    (first rest : List Token) :
    ofTokens (first ++ (key.name.toList ++ '=' :: value) :: rest) =
      (given rest).foldl Setting.apply ((ofTokens first).without key) := by
  have bad : Token.isLong (key.name.toList ++ '=' :: value) = true := by
    rw [isLong_iff]
    cases key <;> exact ⟨_, rfl⟩
  rw [ofTokens_append first (by rintro _ ⟨⟩; exact bad),
    given_complete (word_name_value key value), List.foldl_cons, Setting.apply,
    put_unreadable hkey hvalue]

/-- **A port that is no number** changes nothing else, and of the port it leaves what the
tokens behind it give.  So it is ignored exactly if there was no port in front of it, or if
the port is given again behind it. -/
theorem ofTokens_unreadable_port (hkey : key.isPort = true) (hvalue : readSigned? value = none)
    (first : List Token) (hrest : ∀ token ∈ rest.head?, Token.isLong token = true) :
    let unread := ofTokens (first ++ (key.name.toList ++ '=' :: value) :: rest)
    let passedOver := ofTokens (first ++ rest)
    unread.without key = passedOver.without key ∧
      unread.port? key = (ofTokens rest).port? key ∧
      (unread = passedOver ↔
        (ofTokens first).port? key = none ∨ ∃ later, .value key later ∈ given rest) := by
  intro unread passedOver
  have hunread : unread = (given rest).foldl Setting.apply ((ofTokens first).without key) :=
    ofTokens_append_unreadable hkey hvalue first rest
  have hpassed : passedOver = (given rest).foldl Setting.apply (ofTokens first) :=
    ofTokens_append first hrest
  have alike : unread.without key = passedOver.without key := by
    rw [hunread, hpassed]
    exact without_foldl_congr (without_without _ key) _
  have hport : unread.port? key = (ofTokens rest).port? key := by
    rw [hunread, port?_foldl_eq hkey, port?_without, ofTokens_eq, port?_foldl_eq hkey,
      port?_empty]
  refine ⟨alike, hport, ?_⟩
  rw [eq_iff_of_without hkey alike, hunread, hpassed, port?_foldl_eq hkey, port?_foldl_eq hkey,
    port?_without]
  cases hlast : lastValue? key (given rest) with
  | none =>
    have never := lastValue?_eq_none_iff.mp hlast
    rw [Option.elim_none, Option.elim_none, eq_comm, or_iff_left]
    exact not_exists.mpr never
  | some later =>
    exact iff_of_true rfl (Or.inr ⟨later, mem_of_lastValue? hlast⟩)

/-- A valid port is undone by one that is no number. -/
theorem ofTokens_port_undone :
    readSigned? "abc".toList = none ∧
      ofTokens ["--osc-port=57130".toList] = { oscPort := some 57130 } ∧
      ofTokens ["--osc-port=57130".toList, "--osc-port=abc".toList] = {} := by
  decide +kernel

/-- A port is gone behind one that is no number, though not if it is given again. -/
theorem ofTokens_unreadable_port_between :
    let first := ["--osc-port=1".toList]
    let bad := Key.oscPort.name.toList ++ '=' :: "abc".toList
    let later := Key.oscPort.name.toList ++ '=' :: "2".toList
    ofTokens (first ++ bad :: []) ≠ ofTokens (first ++ []) ∧
      ofTokens (first ++ bad :: [later]) = ofTokens (first ++ [later]) := by
  intro first bad later
  have noNumber : readSigned? "abc".toList = none := by decide
  have there : (ofTokens first).port? .oscPort ≠ none := by decide +kernel
  have again : .value .oscPort "2".toList ∈ given [later] := by decide +kernel
  have long : ∀ token ∈ [later].head?, Token.isLong token = true := by decide +kernel
  have alone : ∀ token ∈ ([] : List Token).head?, Token.isLong token = true := by decide
  constructor
  · intro same
    rcases (ofTokens_unreadable_port rfl noNumber first alone).2.2.mp same with gone | ⟨_, given⟩
    · exact there gone
    · exact List.not_mem_nil given
  · exact (ofTokens_unreadable_port rfl noNumber first long).2.2.mpr (Or.inr ⟨_, again⟩)

end Flags

namespace Store

open Flags

variable {files : Files}

/-- **Layers in one file are loaded like layers in files of their own**: a file that joins
texts with line feeds gives the union of what the texts give in files of their own.  A value
comes from the last layer that gives one, and a switch is on if any layer turns it on. -/
theorem load_joined {paths : List Path} {texts : List (List Char)} {joined : Path}
    (hpaths : List.Forall₂ (fun path text => files.read path = .ok (Utf8.encode text)) paths texts)
    (hjoined : files.read joined = .ok (Utf8.encode (['\n'].intercalate texts)))
    (hfollow : ∀ text ∈ texts.tail, FollowsOn (tokens text)) :
    ∃ layers, List.Forall₂ (fun path layer => load files path = .ok layer) paths layers ∧
      load files joined = .ok (unionAll layers) ∧
      (∀ key, (unionAll layers).text? key = layers.reverse.findSome? (·.text? key)) ∧
      (∀ key, (unionAll layers).port? key = layers.reverse.findSome? (·.port? key)) ∧
      ∀ switch, (unionAll layers).isOn switch = layers.any (·.isOn switch) := by
  refine ⟨texts.map ofText, ?_, ?_, fun key => ?_, fun key => ?_,
    fun switch => isOn_unionAll switch _⟩
  · rw [List.forall₂_map_right_iff]
    exact hpaths.imp fun path text h => load_of_read h
  · rw [load_of_read hjoined, ofText_intercalate hfollow]
  · exact unionAll_eq_findSome? (·.text? key) (text?_empty key)
      (fun flags later => text?_union flags later key) _
  · exact unionAll_eq_findSome? (·.port? key) (port?_empty key)
      (fun flags later => port?_union flags later key) _

/-- The first file ends with a key without a value, behind a port that is no number; the next
one is a comment, and the last one gives the port twice. -/
theorem load_joined_three :
    let texts := ["--quiet\n--osc-port=x\n--osc-host".toList, "# a comment\r".toList,
      "--osc-port 1\n--osc-port=2".toList]
    let root := Files.Entry.directory
      [([97], .file (Utf8.encode texts[0])), ([98], .file (Utf8.encode texts[1])),
        ([99], .file (Utf8.encode texts[2])),
        ([100], .file (Utf8.encode (['\n'].intercalate texts)))]
    load { root } (.ofText "a") = .ok { quiet := true } ∧
      load { root } (.ofText "b") = .ok {} ∧
      load { root } (.ofText "c") = .ok { oscPort := some 2 } ∧
      load { root } (.ofText "d") = .ok { oscPort := some 2, quiet := true } := by
  intro texts root
  have follow : ∀ text ∈ texts.tail, FollowsOn (tokens text) := by
    decide +kernel
  obtain ⟨layers, hlayers, hjoined, -⟩ := @load_joined { root }
    [.ofText "a", .ofText "b", .ofText "c"] texts (.ofText "d")
    (.cons rfl (.cons rfl (.cons rfl .nil))) rfl follow
  have first : load { root } (.ofText "a") = .ok { quiet := true } :=
    (load_of_read rfl).trans (congrArg Except.ok (by decide +kernel))
  have second : load { root } (.ofText "b") = .ok {} :=
    (load_of_read rfl).trans (congrArg Except.ok (by decide +kernel))
  have third : load { root } (.ofText "c") = .ok { oscPort := some 2 } :=
    (load_of_read rfl).trans (congrArg Except.ok (by decide +kernel))
  rcases hlayers with _ | ⟨ha, _ | ⟨hb, _ | ⟨hc, ⟨⟩⟩⟩⟩
  obtain rfl := Except.ok.inj (ha.symm.trans first)
  obtain rfl := Except.ok.inj (hb.symm.trans second)
  obtain rfl := Except.ok.inj (hc.symm.trans third)
  exact ⟨first, second, third, hjoined⟩

end Store

end LiveCoding
