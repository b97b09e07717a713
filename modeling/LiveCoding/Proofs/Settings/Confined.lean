import LiveCoding.Proofs.Settings.Outcome
import LiveCoding.Proofs.Settings.Store

/-!
# Texts that reach no other setting

Saved texts are not escaped, so one that begins with two dashes, or that holds a quote or a
line feed, can be read as a flag of its own.  What a text does can be seen by itself: if it
gives nothing else when it is saved alone, it gives nothing else beside any other flags.

## Main Definitions

* `Flags.only`: nothing but the value of a key.
* `Flags.Confined`: the value of a key, saved alone, gives nothing else.
* `Flags.keyGives`: the settings that the row of a key gives.
* `Store.LoadsAs`: what is loaded from any file that flags are saved in.
* `Store.Undisturbed`: what is loaded shows nothing of a value but that value.

## Main Statements

* `Flags.given_written`: each row of saved flags gives its settings by itself.
* `Flags.confined_of_plain`: texts without quotes, line feeds and leading dashes are
  confined.
* `Flags.ofText_written_of_confined`: confined texts leave all else as it was.
* `Store.load_confined`: a text is confined exactly if it disturbs nothing in any company.

## Design Notes

Every row begins with a flag, so no key at the end of a row takes its value from the next
one (`Flags.given_flatten`).  Text by text, the settings then add up as layers do
(`Flags.foldl_eq_union`), because no confined text leaves a port behind that a later one could
take away again.
-/

namespace LiveCoding

namespace Flags

variable {flags other : Flags} {key : Key} {value : Token}

/-! ### One value -/

/-- Nothing but the value of a key. -/
def only (flags : Flags) : Key → Flags
  | .sclangPath => { sclangPath := flags.sclangPath }
  | .oscHost => { oscHost := flags.oscHost }
  | .oscPort => { oscPort := flags.oscPort }
  | .languageServerPort => { languageServerPort := flags.languageServerPort }

/-- The value of a key, saved alone, gives nothing else. -/
def Confined (flags : Flags) (key : Key) : Prop :=
  (ofText (flags.only key).written).without key = {}

instance (flags : Flags) (key : Key) : Decidable (flags.Confined key) :=
  inferInstanceAs (Decidable (_ = _))

/-- Flags whose ports fit the type that ports are kept in. -/
def SignedPorts (flags : Flags) : Prop :=
  ∀ key, ∀ port ∈ flags.port? key, IsSigned port

theorem eq_only_of_without (h : flags.without key = {}) : flags = flags.only key := by
  obtain ⟨path, host, port, server, noServer, quiet⟩ := flags
  cases key <;> simp_all [without, only]

theorem value?_only (flags : Flags) (key other : Key) :
    (flags.only key).value? other = if other = key then flags.value? other else none := by
  cases key <;> cases other <;> rfl

/-! ### Row by row -/

/-- The settings that a row gives. -/
def rowGives (row : List Char) : List Setting :=
  given (tokens (row ++ ['\n']))

/-- The first token of a text that begins with two dashes begins with them too. -/
theorem exists_tokens_eq {text : List Char} (h : "--".toList <+: text) :
    ∃ first rest, tokens (text ++ ['\n']) = first :: rest ∧ Token.isLong first = true := by
  have noBlank : ∀ c ∈ "--".toList, isBlank c = false :=
    List.forall_mem_cons.mpr ⟨by decide, List.forall_mem_singleton.mpr (by decide)⟩
  obtain ⟨row, rows, cut, begins⟩ := exists_rows_eq (by decide) (by decide) h
  have trimmed : "--".toList <+: trim row := prefix_trim noBlank begins
  have telling : isTelling (trim row) = true := by
    obtain ⟨later, hlater⟩ := trimmed
    rw [← hlater]
    rfl
  obtain ⟨token, rest, split, long⟩ :=
    Token.exists_split_eq (by decide) (by decide) noBlank trimmed
  refine ⟨token, rest ++ rows.flatMap rowTokens, ?_, isLong_iff.mpr long⟩
  rw [tokens_eq, cut, List.flatMap_cons, rowTokens, if_pos telling, split, List.cons_append]

/-- Rows that begin with a flag give their settings each by itself. -/
theorem given_rows {rows : List (List Char)} (h : ∀ row ∈ rows, "--".toList <+: row) :
    given (tokens (rows.flatMap (· ++ ['\n']))) = rows.flatMap rowGives := by
  have cut : tokens (rows.flatMap (· ++ ['\n'])) =
      (rows.map fun row => tokens (row ++ ['\n'])).flatten := by
    clear h
    induction rows with
    | nil => rfl
    | cons row rows ih =>
      rw [List.flatMap_cons, List.append_assoc, List.singleton_append, tokens_append, ih]
      rfl
  have long : ∀ list ∈ rows.map (fun row => tokens (row ++ ['\n'])), ∀ token ∈ list.head?,
      Token.isLong token = true := by
    refine List.forall_mem_map.mpr fun row hrow => ?_
    obtain ⟨first, rest, hfirst, long⟩ := exists_tokens_eq (h row hrow)
    rw [hfirst]
    rintro token ⟨⟩
    exact long
  rw [cut, given_flatten fun list hlist => long list (List.mem_of_mem_tail hlist),
    List.flatMap_map]
  rfl

/-- The settings that the row of a key gives. -/
def keyGives (flags : Flags) (key : Key) : List Setting :=
  (valueRow key ((flags.value? key).map Token.quote)).flatMap rowGives

/-- **Each row of saved flags gives its settings by itself.** -/
theorem given_written (flags : Flags) :
    given (tokens flags.written) =
      Key.all.flatMap flags.keyGives ++ given flags.switchRows := by
  have comment : tokens (header.toList ++ ['\n']) = [] := by decide
  have long : ∀ row ∈ (Key.all.flatMap fun key =>
      valueRow key ((flags.value? key).map Token.quote)) ++ flags.switchRows,
      "--".toList <+: row := by
    intro row hrow
    rcases List.mem_append.mp hrow with hrow | hrow
    · obtain ⟨key, -, hrow⟩ := List.mem_flatMap.mp hrow
      cases hvalue : flags.value? key with
      | none =>
        rw [hvalue] at hrow
        contradiction
      | some value =>
        rw [hvalue] at hrow
        obtain rfl := List.mem_singleton.mp hrow
        cases key <;> exact ⟨_, rfl⟩
    · rcases mem_switchRows hrow with rfl | rfl <;> exact ⟨_, rfl⟩
  have switches : flags.switchRows.flatMap rowGives = given flags.switchRows := by
    unfold switchRows
    cases flags.noLanguageServer <;> cases flags.quiet <;> decide
  rw [written, rows_eq, List.cons_append, List.flatMap_cons, List.append_assoc,
    List.singleton_append, tokens_append, comment, List.nil_append, given_rows long,
    List.flatMap_append, List.flatMap_assoc, switches]
  rfl

/-- What a value gives when it is saved alone. -/
theorem ofText_only (flags : Flags) (key : Key) :
    ofText (flags.only key).written = (flags.keyGives key).foldl Setting.apply {} := by
  have alone (other : Key) :
      (flags.only key).keyGives other = if other = key then flags.keyGives other else [] := by
    rw [keyGives, value?_only]
    split
    · rfl
    · rfl
  have off : (flags.only key).switchRows = [] := by
    cases key <;> rfl
  have rows : Key.all.flatMap (flags.only key).keyGives = flags.keyGives key := by
    simp only [Key.all, List.flatMap_cons, List.flatMap_nil, alone]
    cases key <;> simp
  rw [ofText, ofTokens, putTokens_eq, given_written, rows, off]
  exact congrArg (List.foldl Setting.apply {}) (List.append_nil _)

/-! ### Values without quotes and line feeds -/

theorem rowGives_value (key : Key) (hquote : '"' ∉ value) (hnewline : '\n' ∉ value) :
    rowGives (key.name.toList ++ ' ' :: Token.quote value) =
      given (valueTokens key (some value)) := by
  obtain ⟨noFeed, noReturn⟩ := valueRow_whole key hnewline
  rw [rowGives, tokens_eq, rows_append_newline noFeed noReturn, List.flatMap_cons,
    rowTokens_value key hquote]
  exact congrArg given (List.append_nil _)

theorem keyGives_of_storable (h : ∀ value ∈ flags.value? key, IsStorable value) :
    flags.keyGives key = ((flags.value? key).map (Setting.value key)).toList := by
  rw [keyGives]
  cases hvalue : flags.value? key with
  | none => rfl
  | some value =>
    have storable := h value hvalue
    have short : Token.isLong value = false :=
      Bool.eq_false_iff.mpr (mt isLong_iff.mp storable.not_long)
    have one : given (valueTokens key (some value) ++ []) = .value key value :: given [] :=
      given_valueTokens (by rintro _ ⟨⟩; exact ⟨storable.ne_nil, short⟩) []
    rw [Option.map_some, valueRow, List.flatMap_singleton,
      rowGives_value key storable.quote_not_mem storable.newline_not_mem,
      ← List.append_nil (valueTokens _ _), one]
    rfl

/-- The row of a port gives the port. -/
theorem keyGives_of_no_text (h : flags.text? key = none) :
    flags.keyGives key = ((flags.value? key).map (Setting.value key)).toList := by
  refine keyGives_of_storable fun value hvalue => ?_
  rcases text_or_numeral hvalue with htext | ⟨n, rfl⟩
  · rw [h] at htext
    contradiction
  · exact isStorable_numeral n

/-- **A text without quotes, line feeds and leading dashes is confined.** -/
theorem confined_of_plain
    (h : ∀ value ∈ flags.text? key, '"' ∉ value ∧ '\n' ∉ value ∧ ¬ "--".toList <+: value) :
    flags.Confined key := by
  rw [Confined, ofText_only]
  by_cases hempty : flags.value? key = some []
  · have nothing : flags.keyGives key = [] := by
      rw [keyGives, hempty]
      cases key <;> decide
    rw [nothing]
    cases key <;> rfl
  · have storable : ∀ value ∈ flags.value? key, IsStorable value := by
      intro value hvalue
      rcases text_or_numeral hvalue with htext | ⟨n, rfl⟩
      · obtain ⟨hquote, hnewline, short⟩ := h value htext
        refine ⟨?_, hquote, hnewline, short⟩
        rintro rfl
        exact hempty hvalue
      · exact isStorable_numeral n
    rw [keyGives_of_storable storable]
    cases flags.value? key <;> cases key <;> rfl

/-! ### Texts side by side -/

/-- Two confined texts give nothing but themselves. -/
theorem foldl_texts (hpath : flags.Confined .sclangPath) (hhost : flags.Confined .oscHost) :
    (flags.keyGives .oscHost).foldl Setting.apply
        ((flags.keyGives .sclangPath).foldl Setting.apply {}) =
      { sclangPath := (ofText (flags.only .sclangPath).written).sclangPath
        oscHost := (ofText (flags.only .oscHost).written).oscHost } := by
  have path := eq_only_of_without hpath
  have host := eq_only_of_without hhost
  rw [ofText_only] at path host ⊢
  rw [ofText_only]
  generalize (flags.keyGives .sclangPath).foldl Setting.apply {} = first at path ⊢
  have noPort : ∀ key, key.isPort = true → first.port? key = none := by
    intro key hkey
    rw [path]
    cases key <;> first | contradiction | rfl
  rw [foldl_eq_union fun key hkey => Or.inl (noPort key hkey)]
  generalize (flags.keyGives .oscHost).foldl Setting.apply {} = second at host ⊢
  rw [path, host]
  simp [union, only]

/-- **Confined texts leave all else as it was**, and what is read of each depends on it
alone. -/
theorem ofText_written_of_confined (ports : flags.SignedPorts)
    (hpath : flags.Confined .sclangPath) (hhost : flags.Confined .oscHost) :
    ofText flags.written =
      { flags with
        sclangPath := (ofText (flags.only .sclangPath).written).sclangPath
        oscHost := (ofText (flags.only .oscHost).written).oscHost } := by
  have texts := foldl_texts hpath hhost
  generalize (ofText (flags.only .sclangPath).written).sclangPath = path at texts ⊢
  generalize (ofText (flags.only .oscHost).written).oscHost = host at texts ⊢
  have kept : SignedPorts { flags with sclangPath := path, oscHost := host } := by
    intro key port hport
    refine ports key port ?_
    cases key <;> exact hport
  rw [ofText, ofTokens, putTokens_eq, given_written, given_switches]
  simp only [Key.all, List.flatMap_cons, List.flatMap_nil, List.append_nil, List.append_assoc]
  rw [List.foldl_append, List.foldl_append, texts, keyGives_of_no_text rfl,
    keyGives_of_no_text rfl]
  exact foldl_ports kept

theorem only_of_without {other : Key} (h : other ≠ key) :
    (flags.without key).only other = flags.only other := by
  cases key <;> cases other <;> first | rfl | contradiction

/-- A value that is absent is confined. -/
theorem confined_of_only (h : flags.only key = {}) : flags.Confined key := by
  refine confined_of_plain fun text htext => ?_
  have absent : (flags.only key).text? key = none := by
    rw [h]
    cases key <;> rfl
  cases key <;> exact absurd (htext.symm.trans absent) nofun

/-- Of flags that differ in one value, all else is read alike. -/
theorem ofText_written_without (ports : flags.SignedPorts) (ports' : other.SignedPorts)
    (confined : ∀ key, flags.Confined key) (confined' : ∀ key, other.Confined key)
    (same : other.without key = flags.without key) :
    (ofText other.written).without key = (ofText flags.written).without key := by
  rw [ofText_written_of_confined ports (confined .sclangPath) (confined .oscHost),
    ofText_written_of_confined ports' (confined' .sclangPath) (confined' .oscHost)]
  obtain ⟨path, host, port, server, noServer, quiet⟩ := flags
  obtain ⟨path', host', port', server', noServer', quiet'⟩ := other
  cases key <;> simp_all [without, only]

end Flags

namespace Store

open Flags

/-- From whatever file flags are saved in, flags with a property are loaded. -/
def LoadsAs (flags : Flags) (property : Flags → Prop) : Prop :=
  ∀ (files saved : Files) (path : Path), files.HasWorkingDirectory →
    save files path flags = (saved, .ok ()) →
      ∃ loaded, load saved path = .ok loaded ∧ property loaded

theorem loadsAs_iff {flags : Flags} {property : Flags → Prop} :
    LoadsAs flags property ↔ property (ofText flags.written) := by
  constructor
  · intro h
    have here : (Files.within []).HasWorkingDirectory := ⟨_, rfl⟩
    obtain ⟨loaded, hload, holds⟩ := h (.within []) _ localPath here rfl
    rw [load_of_save here rfl] at hload
    rwa [Except.ok.inj hload]
  · intro holds files saved path here hsave
    exact ⟨_, load_of_save here hsave, holds⟩

/-- What is loaded of flags shows nothing of the value of a key but that value: switches and
ports are as they were, and with another value that is confined all else is loaded alike. -/
structure Undisturbed (flags : Flags) (key : Key) (loaded : Flags) : Prop where
  noLanguageServer : loaded.noLanguageServer = flags.noLanguageServer
  quiet : loaded.quiet = flags.quiet
  oscPort : loaded.oscPort = flags.oscPort
  languageServerPort : loaded.languageServerPort = flags.languageServerPort
  others : ∀ changed : Flags, changed.without key = flags.without key → changed.SignedPorts →
    changed.Confined key → LoadsAs changed fun loaded' => loaded'.without key = loaded.without key

section Company

variable {flags : Flags} {key : Key}

theorem undisturbed_of_confined (ports : flags.SignedPorts)
    (confined : ∀ key, flags.Confined key) (key : Key) :
    Undisturbed flags key (ofText flags.written) := by
  have loaded := ofText_written_of_confined ports (confined .sclangPath) (confined .oscHost)
  refine ⟨?_, ?_, ?_, ?_, ?_⟩
  · rw [loaded]
  · rw [loaded]
  · rw [loaded]
  · rw [loaded]
  · intro changed same ports' confined'
    have all : ∀ other, changed.Confined other := by
      intro other
      by_cases h : other = key
      · rwa [h]
      · have only : changed.only other = flags.only other := by
          rw [← only_of_without h, same, only_of_without h]
        rw [Confined, only]
        exact confined other
    rw [loadsAs_iff]
    exact ofText_written_without ports ports' confined all same

/-- A value that is undisturbed alone is confined. -/
theorem confined_of_undisturbed (h : Undisturbed (flags.only key) key
    (ofText (flags.only key).written)) : flags.Confined key := by
  have absent : ({} : Flags).only key = {} := by cases key <;> rfl
  have nothing : (ofText (written {})).without key = {} := by
    have confined := confined_of_only absent
    rwa [Confined, absent] at confined
  have noPorts : SignedPorts {} := by
    rintro (_ | _ | _ | _) port hport <;> contradiction
  have change := h.others {} (by cases key <;> rfl) noPorts (confined_of_only absent)
  rw [loadsAs_iff] at change
  rw [Confined, ← change]
  exact nothing

end Company

/-- **A text changes another setting in no company if it changes none by itself.**  A text
without quotes, line feeds and leading dashes is confined; and a text is confined exactly if
it disturbs nothing, whatever other flags it is saved with. -/
theorem load_confined (flags : Flags) (key : Key) :
    ((∀ text ∈ flags.text? key, '"' ∉ text ∧ '\n' ∉ text ∧ ¬ "--".toList <+: text) →
      flags.Confined key) ∧
    (flags.Confined key ↔
      ∀ beside : Flags, beside.only key = flags.only key → beside.SignedPorts →
        (∀ other ≠ key, beside.Confined other) →
          LoadsAs beside (Undisturbed beside key)) := by
  refine ⟨confined_of_plain, ?_, ?_⟩
  · intro confined beside same ports others
    have all : ∀ other, beside.Confined other := by
      intro other
      by_cases h : other = key
      · rwa [h, Confined, same]
      · exact others other h
    rw [loadsAs_iff]
    exact undisturbed_of_confined ports all key
  · intro company
    cases htext : flags.text? key with
    | none =>
      refine confined_of_plain fun text h => ?_
      rw [htext] at h
      contradiction
    | some text =>
      -- without any company but absent values
      have ports : (flags.only key).SignedPorts := by
        cases key <;> rintro (_ | _ | _ | _) port hport <;> contradiction
      have absent : ∀ other ≠ key, (flags.only key).Confined other := by
        intro other h
        refine confined_of_only ?_
        cases key <;> cases other <;> first | rfl | contradiction
      have same : (flags.only key).only key = flags.only key := by cases key <;> rfl
      exact confined_of_undisturbed (loadsAs_iff.mp (company _ same ports absent))

/-- A path with a quote inside is confined beside a host with a blank, which is plain: the
port stays as it is, and the host is loaded alike if the path becomes empty. -/
theorem load_confined_quote :
    LoadsAs { sclangPath := some "Super\"Collider", oscHost := some " -é", oscPort := some 0 }
      fun loaded => loaded.quiet = false ∧ loaded.oscPort = some 0 ∧
        LoadsAs { sclangPath := some "", oscHost := some " -é", oscPort := some 0 }
          fun loaded' => loaded'.without .sclangPath = loaded.without .sclangPath := by
  have ports (path : String) : Flags.SignedPorts
      { sclangPath := some path, oscHost := some " -é", oscPort := some 0 } := by
    rintro (_ | _ | _ | _) port ⟨⟩
    decide
  have others (path : String) : ∀ key ≠ .sclangPath, Flags.Confined
      { sclangPath := some path, oscHost := some " -é", oscPort := some 0 } key := by
    intro key hkey
    refine (load_confined _ key).1 ?_
    cases key <;> rintro text ⟨⟩
    · contradiction
    · exact ⟨by decide, by decide, by decide⟩
  have inside : Flags.Confined { sclangPath := some "Super\"Collider" } .sclangPath := by
    decide +kernel
  have empty : Flags.Confined
      { sclangPath := some "", oscHost := some " -é", oscPort := some 0 } .sclangPath := by
    refine (load_confined _ _).1 ?_
    rintro text ⟨⟩
    exact ⟨by decide, by decide, by decide⟩
  have company := (load_confined _ _).2.mp inside
    { sclangPath := some "Super\"Collider", oscHost := some " -é", oscPort := some 0 } rfl
    (ports _) (others _)
  intro files saved path here hsave
  obtain ⟨loaded, hload, undisturbed⟩ := company files saved path here hsave
  exact ⟨loaded, hload, undisturbed.quiet, undisturbed.oscPort,
    undisturbed.others _ rfl (ports _) empty⟩

/-- Quotes in a path turn output off, a line feed in it sets a port, and a host that begins
with two dashes sets the path. -/
theorem load_flag_in_text :
    (∃ saved,
      save (.within []) localPath { sclangPath := some "/opt/x\" --quiet \"y" } =
          (saved, .ok ()) ∧
        load saved localPath = .ok { sclangPath := some "/opt/x", quiet := true }) ∧
    (∃ saved,
      save (.within []) localPath { sclangPath := some "/sclang\n--osc-port=1" } =
          (saved, .ok ()) ∧
        load saved localPath = .ok { sclangPath := some "/sclang", oscPort := some 1 }) ∧
    ∃ saved,
      save (.within []) localPath { oscHost := some "--sclang-path=/sclang" } =
          (saved, .ok ()) ∧
        load saved localPath = .ok { sclangPath := some "/sclang" } := by
  have here : (Files.within []).HasWorkingDirectory := ⟨_, rfl⟩
  refine ⟨⟨_, rfl, (load_of_save here rfl).trans ?_⟩, ⟨_, rfl, (load_of_save here rfl).trans ?_⟩,
    _, rfl, (load_of_save here rfl).trans ?_⟩
  · exact congrArg Except.ok (by decide +kernel)
  · exact congrArg Except.ok (by decide +kernel)
  · exact congrArg Except.ok (by decide +kernel)

end Store

end LiveCoding
