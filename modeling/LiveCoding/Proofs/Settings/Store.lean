import LiveCoding.Proofs.Files.Write
import LiveCoding.Proofs.Settings.Outcome
import LiveCoding.Proofs.Settings.Written
import LiveCoding.Proofs.Text.Utf8

/-!
# Settings saved and loaded

What flags are saved as is loaded as the same flags if and only if their texts can be
stored: there is a text, it holds no quote and no line feed, and it does not begin with
two dashes.

## Main Definitions

* `Flags.saved`: the settings that flags are saved as.

## Main Statements

* `Flags.ofText_written_of_storable`: flags that can be stored are read back.
* `Flags.storable_of_ofText_written`: no others are.
* `Store.load_of_read`, `Store.load_of_save`: what is loaded are the flags of the text in the
  file, which is the text that was saved.
* `Store.load_save_iff`: the same of a file.

## Design Notes

A text with a quote or a line feed is lost because no token holds either.  An empty text,
or one that begins with two dashes, is lost because nothing but another text could give
it: that would be the name of its key, an equals sign and the text itself.  The other text
then begins with two dashes too, so it had to be given by the first one in turn, and each
would be longer than the other.
-/

namespace LiveCoding

namespace Flags

variable {flags : Flags} {key : Key} {value : Token}

/-! ### What can be stored is read back -/

/-- The settings that flags are saved as. -/
def saved (flags : Flags) : List Setting :=
  (Key.all.flatMap fun key => ((flags.value? key).map (Setting.value key)).toList) ++
    ((if flags.noLanguageServer then [.noLanguageServer] else []) ++
      if flags.quiet then [.quiet] else [])

theorem given_valueTokens {value? : Option Token}
    (h : ∀ value ∈ value?, value ≠ [] ∧ Token.isLong value = false) (rest : List Token) :
    given (valueTokens key value? ++ rest) =
      (value?.map (Setting.value key)).toList ++ given rest := by
  cases value? with
  | none => rfl
  | some value =>
    obtain ⟨nonempty, short⟩ := h value rfl
    have one : valueTokens key (some value) = [key.name.toList, value] := by
      rw [valueTokens, if_neg]
      simpa using nonempty
    rw [one]
    exact given_wanting_value (word_name key) short rest

theorem given_keys {keys : List Key}
    (h : ∀ key, ∀ value ∈ flags.value? key, value ≠ [] ∧ Token.isLong value = false)
    (rest : List Token) :
    given ((keys.flatMap fun key => valueTokens key (flags.value? key)) ++ rest) =
      (keys.flatMap fun key => ((flags.value? key).map (Setting.value key)).toList) ++
        given rest := by
  induction keys with
  | nil => rfl
  | cons key keys ih =>
    rw [List.flatMap_cons, List.append_assoc, given_valueTokens (h key), ih, List.flatMap_cons,
      List.append_assoc]

theorem given_switches (flags : Flags) :
    given flags.switchRows =
      (if flags.noLanguageServer then [.noLanguageServer] else []) ++
        if flags.quiet then [.quiet] else [] := by
  unfold switchRows
  cases flags.noLanguageServer <;> cases flags.quiet <;> decide

theorem put_text (flags : Flags) (s : String) :
    flags.put .sclangPath s.toList = { flags with sclangPath := some s } ∧
      flags.put .oscHost s.toList = { flags with oscHost := some s } := by
  rw [put, put, String.ofList_toList]
  exact ⟨rfl, rfl⟩

theorem put_port (flags : Flags) {n : Int} (h : IsSigned n) :
    flags.put .oscPort (numeral n) = { flags with oscPort := some n } ∧
      flags.put .languageServerPort (numeral n) = { flags with languageServerPort := some n } := by
  rw [put, put, numeral, readSigned?_toString h]
  exact ⟨rfl, rfl⟩

/-- What ports and switches are saved as makes them again, over any texts. -/
theorem foldl_ports (h : ∀ key, ∀ port ∈ flags.port? key, IsSigned port) :
    (((flags.value? .oscPort).map (Setting.value .oscPort)).toList ++
        (((flags.value? .languageServerPort).map (Setting.value .languageServerPort)).toList ++
          ((if flags.noLanguageServer then [Setting.noLanguageServer] else []) ++
            if flags.quiet then [Setting.quiet] else []))).foldl Setting.apply
      { sclangPath := flags.sclangPath, oscHost := flags.oscHost } = flags := by
  obtain ⟨path, host, port, server, noServer, quiet⟩ := flags
  have ports : ((port.map numeral).map (Setting.value .oscPort)).toList.foldl
      Setting.apply { sclangPath := path, oscHost := host } =
        { sclangPath := path, oscHost := host, oscPort := port } := by
    cases port with
    | none => rfl
    | some n => exact (put_port _ (h .oscPort n rfl)).1
  have servers : ((server.map numeral).map (Setting.value .languageServerPort)).toList.foldl
      Setting.apply { sclangPath := path, oscHost := host, oscPort := port } =
        { sclangPath := path, oscHost := host, oscPort := port, languageServerPort := server } := by
    cases server with
    | none => rfl
    | some n => exact (put_port _ (h .languageServerPort n rfl)).2
  simp only [value?, text?, Flags.port?, Option.none_or, List.foldl_append, ports, servers]
  cases noServer <;> cases quiet <;> rfl

/-- What flags are saved as makes them again. -/
theorem foldl_saved (h : ∀ key, ∀ port ∈ flags.port? key, IsSigned port) :
    flags.saved.foldl Setting.apply {} = flags := by
  have paths : ((flags.value? .sclangPath).map (Setting.value .sclangPath)).toList.foldl
      Setting.apply {} = { sclangPath := flags.sclangPath } := by
    rw [value?, text?, Flags.port?, Option.map_none, Option.or_none]
    cases flags.sclangPath with
    | none => rfl
    | some s => exact (put_text _ s).1
  have hosts : ((flags.value? .oscHost).map (Setting.value .oscHost)).toList.foldl
      Setting.apply { sclangPath := flags.sclangPath } =
        { sclangPath := flags.sclangPath, oscHost := flags.oscHost } := by
    rw [value?, text?, Flags.port?, Option.map_none, Option.or_none]
    cases flags.oscHost with
    | none => rfl
    | some s => exact (put_text _ s).2
  simp only [saved, Key.all, List.flatMap_cons, List.flatMap_nil, List.append_nil,
    List.append_assoc]
  rw [List.foldl_append, paths, List.foldl_append, hosts]
  exact foldl_ports h

/-- **Flags that can be stored are read back.** -/
theorem ofText_written_of_storable (h : flags.Storable) : ofText flags.written = flags := by
  obtain ⟨texts, ports⟩ := storable_iff.mp h
  have values : ∀ key, ∀ value ∈ flags.value? key, IsStorable value := by
    intro key value hvalue
    rcases text_or_numeral hvalue with htext | ⟨n, rfl⟩
    · exact texts key value htext
    · exact isStorable_numeral n
  rw [ofText, tokens_written (fun key value h => (values key value h).quote_not_mem)
    (fun key value h => (values key value h).newline_not_mem), ofTokens, putTokens_eq,
    writtenTokens, given_keys, given_switches]
  · exact foldl_saved ports
  · intro key value hvalue
    have storable := values key value hvalue
    exact ⟨storable.ne_nil, Bool.eq_false_iff.mpr (mt isLong_iff.mp storable.not_long)⟩

/-! ### Nothing else is -/

/-- No token of a text holds a quote or a line feed. -/
theorem not_mem_of_mem_tokens {text : List Char} {token : Token} (h : token ∈ tokens text) :
    '"' ∉ token ∧ '\n' ∉ token := by
  rw [tokens_eq] at h
  obtain ⟨row, hrow, h⟩ := List.mem_flatMap.mp h
  rw [rowTokens] at h
  split at h
  · refine ⟨Token.quote_not_mem_of_mem_split h, fun hmem => ?_⟩
    have inRow := (trim_sublist row).subset (Token.mem_of_mem_split h hmem)
    exact newline_not_mem_of_mem_rows hrow inRow
  · contradiction

/-- Nor does a value that stands among them. -/
theorem not_mem_of_stands {text : List Char} (h : Stands key value (tokens text)) :
    '"' ∉ value ∧ '\n' ∉ value := by
  rcases h with h | ⟨h, -⟩
  · have inside : ∀ c ∈ value, c ∈ key.name.toList ++ '=' :: value := fun c hc =>
      List.mem_append_right _ (List.mem_cons_of_mem _ hc)
    exact (not_mem_of_mem_tokens h).imp (mt (inside _)) (mt (inside _))
  · exact not_mem_of_mem_tokens h

theorem not_mem_of_loaded (loaded : ofText flags.written = flags)
    (h : value ∈ flags.value? key) : '"' ∉ value ∧ '\n' ∉ value := by
  rcases text_or_numeral h with htext | ⟨n, rfl⟩
  · rw [← loaded] at htext
    exact not_mem_of_stands (stands_of_text? htext)
  · exact ⟨(isStorable_numeral n).quote_not_mem, (isStorable_numeral n).newline_not_mem⟩

/-- A token of saved flags is not empty, and is one of their texts if it holds an equals
sign. -/
theorem exists_text_of_mem {token : Token} (h : token ∈ flags.writtenTokens) :
    token ≠ [] ∧ ('=' ∈ token → ∃ key, flags.text? key = some token) := by
  rcases List.mem_append.mp h with h | h
  · obtain ⟨key, -, h⟩ := List.mem_flatMap.mp h
    cases hvalue : flags.value? key with
    | none =>
      rw [hvalue] at h
      contradiction
    | some value =>
      rw [hvalue, valueTokens] at h
      rcases List.mem_cons.mp h with rfl | h
      · have named : key.name.toList ≠ [] ∧ '=' ∉ key.name.toList := by cases key <;> decide
        exact ⟨named.1, fun hmem => absurd hmem named.2⟩
      · split at h
        · contradiction
        next nonempty =>
          obtain rfl := List.mem_singleton.mp h
          refine ⟨by simpa using nonempty, fun hmem => ?_⟩
          rcases text_or_numeral hvalue with htext | ⟨n, rfl⟩
          · exact ⟨key, htext⟩
          · exact absurd hmem (not_mem_numeral (by decide) (by decide) n)
  · rcases mem_switchRows h with rfl | rfl
    · exact ⟨by decide, fun hmem => absurd hmem (by decide)⟩
    · exact ⟨by decide, fun hmem => absurd hmem (by decide)⟩

/-- An empty text, or one that begins with two dashes, can only be read back from behind
its key in another text. -/
theorem exists_longer_text (loaded : ofText flags.written = flags)
    (h : flags.text? key = some value) (lost : value = [] ∨ "--".toList <+: value) :
    ∃ other, flags.text? other = some (key.name.toList ++ '=' :: value) := by
  have clean : ∀ key, ∀ value ∈ flags.value? key, '"' ∉ value ∧ '\n' ∉ value :=
    fun key value => not_mem_of_loaded loaded
  have found : Stands key value (tokens flags.written) := by
    rw [← loaded] at h
    exact stands_of_text? h
  rw [tokens_written (fun key value h => (clean key value h).1)
    (fun key value h => (clean key value h).2)] at found
  rcases found with found | ⟨found, short⟩
  · exact (exists_text_of_mem found).2 (List.mem_append_right _ List.mem_cons_self)
  · rcases lost with rfl | long
    · exact absurd rfl (exists_text_of_mem found).1
    · rw [isLong_iff.mpr long] at short
      contradiction

/-- Of three keys with a text two are the same. -/
theorem text_keys {first second third : Key} (h₁ : (flags.text? first).isSome)
    (h₂ : (flags.text? second).isSome) (h₃ : (flags.text? third).isSome) :
    second = first ∨ third = second ∨ third = first := by
  cases first <;> cases second <;> cases third <;>
    first
    | decide
    | exact Bool.noConfusion h₁
    | exact Bool.noConfusion h₂
    | exact Bool.noConfusion h₃

/-- **A text that is read back** is not empty and does not begin with two dashes. -/
theorem not_lost_of_loaded (loaded : ofText flags.written = flags)
    (h : flags.text? key = some value) : ¬ (value = [] ∨ "--".toList <+: value) := by
  intro lost
  have long (key : Key) (value : Token) : "--".toList <+: key.name.toList ++ '=' :: value := by
    cases key <;> exact ⟨_, rfl⟩
  have longer (key : Key) (value : Token) :
      value.length < (key.name.toList ++ '=' :: value).length := by
    rw [List.length_append, List.length_cons]
    omega
  -- each text would stand in another one, and there are only two
  obtain ⟨second, h₂⟩ := exists_longer_text loaded h lost
  obtain ⟨third, h₃⟩ := exists_longer_text loaded h₂ (Or.inr (long key value))
  have different {key key' : Key} {text text' : Token} (htext : flags.text? key = some text)
      (htext' : flags.text? key' = some text') (longer : text.length < text'.length) :
      key' ≠ key := by
    rintro rfl
    rw [htext] at htext'
    obtain rfl := Option.some.inj htext'
    exact Nat.lt_irrefl _ longer
  rcases text_keys (Option.isSome_of_mem h) (Option.isSome_of_mem h₂) (Option.isSome_of_mem h₃)
    with same | same | same
  · exact different h h₂ (longer _ _) same
  · exact different h₂ h₃ (longer _ _) same
  · exact different h h₃ (Nat.lt_trans (longer _ _) (longer _ _)) same

/-- **No other flags are read back.** -/
theorem storable_of_ofText_written (loaded : ofText flags.written = flags) : flags.Storable := by
  refine storable_iff.mpr ⟨?_, ?_⟩
  · intro key value hvalue
    obtain ⟨quote, newline⟩ :=
      not_mem_of_loaded loaded (Option.or_eq_some_iff.mpr (Or.inl hvalue))
    obtain ⟨nonempty, short⟩ := not_or.mp (not_lost_of_loaded loaded hvalue)
    exact ⟨nonempty, quote, newline, short⟩
  · intro key port hport
    rw [← loaded] at hport
    exact isSigned_of_port? hport

end Flags

namespace Store

variable {files saved : Files} {path : Path} {flags : Flags}

/-- What is made for a file keeps all that there was. -/
theorem keeps_makeRoom (files : Files) (path : Path) :
    files.Keeps (makeRoom files path).1 := by
  unfold makeRoom
  split
  · exact Files.Keeps.refl files
  next parent _ =>
    have keeps := files.keeps_makeDirectories parent
    split
    next h =>
      rw [h] at keeps
      exact keeps
    next h =>
      rw [h] at keeps
      exact keeps

/-- **What is loaded are the flags of the text in the file.** -/
theorem load_of_read {text : List Char} (h : files.read path = .ok (Utf8.encode text)) :
    load files path = .ok (Flags.ofText text) := by
  have there : files.contains path = true := by
    rw [Files.read] at h
    split at h
    · contradiction
    all_goals
      next found =>
        rw [Files.contains, found]
        rfl
  rw [load, there, Bool.not_true, if_neg Bool.false_ne_true, h]
  dsimp only
  rw [Utf8.decode_encode]

/-- **What is loaded is the text that was saved.** -/
theorem load_of_save (here : files.HasWorkingDirectory)
    (h : save files path flags = (saved, .ok ())) :
    load saved path = .ok (Flags.ofText flags.written) := by
  have room := keeps_makeRoom files path
  unfold save at h
  split at h
  · exact absurd (Prod.mk.inj h).2 (by simp)
  next made hmade =>
    rw [hmade] at room
    split at h
    next written hwritten =>
      obtain ⟨rfl, -⟩ := Prod.mk.inj h
      obtain ⟨place, hfind⟩ := Files.find_of_write (room.hasWorkingDirectory here) hwritten
      refine load_of_read ?_
      rw [Files.read, hfind]
    · exact absurd (Prod.mk.inj h).2 (by simp)

/-- **What was saved is loaded again if and only if it can be stored**: as a text, and from
any file that it could be saved in. -/
theorem load_save_iff (flags : Flags) :
    (Flags.ofText flags.written = flags ↔ flags.Storable) ∧
      ∀ (files saved : Files) (path : Path), files.HasWorkingDirectory →
        save files path flags = (saved, .ok ()) →
        (load saved path = .ok flags ↔ flags.Storable) := by
  have text : Flags.ofText flags.written = flags ↔ flags.Storable :=
    ⟨Flags.storable_of_ofText_written, Flags.ofText_written_of_storable⟩
  refine ⟨text, ?_⟩
  intro files saved path here h
  rw [load_of_save here h, ← text]
  exact iff_of_eq (Except.ok.injEq _ _)

/-- Blanks at both ends, a return, a number sign, an equals sign and the least port are
kept; a text that begins with two dashes is not. -/
theorem load_save_blanks_and_dashes :
    (∃ saved,
      save (.within []) localPath
          { sclangPath := some " #Super Collider=\r", oscHost := some "-é",
            oscPort := some (-9223372036854775808), quiet := true } = (saved, .ok ()) ∧
        load saved localPath =
          .ok { sclangPath := some " #Super Collider=\r", oscHost := some "-é",
                oscPort := some (-9223372036854775808), quiet := true }) ∧
      ∃ saved,
        save (.within []) localPath { oscHost := some "--é" } = (saved, .ok ()) ∧
          load saved localPath ≠ .ok { oscHost := some "--é" } := by
  have here : (Files.within []).HasWorkingDirectory := ⟨_, rfl⟩
  refine ⟨⟨_, rfl, ((load_save_iff _).2 _ _ _ here rfl).mpr ?_⟩, _, rfl,
    mt ((load_save_iff _).2 _ _ _ here rfl).mp ?_⟩
  · refine ⟨?_, ?_, ?_, ?_⟩
    · rintro path ⟨⟩
      exact ⟨by decide, by decide, by decide, by decide⟩
    · rintro host ⟨⟩
      exact ⟨by decide, by decide, by decide, by decide⟩
    · rintro port ⟨⟩
      decide
    · rintro port ⟨⟩
  · intro storable
    exact (storable.oscHost _ rfl).not_long (by decide)

end Store

end LiveCoding
