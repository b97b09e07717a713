import LiveCoding.Proofs.Settings.Flags

/-!
# What settings come to

Settings that are put into force one after the other leave each key with the last value
that it was given, and each switch on that was turned on once.  A port is the one case in
which a setting can take something away: a last value that is no number leaves no port.

## Main Definitions

* `Flags.Key.isPort`: the keys whose value is a port.
* `Flags.Switch`: the flags that want no value, and `Flags.isOn`: whether one is on.
* `Flags.without`: flags without the value of a key.
* `Flags.lastValue?`: the last value that settings give a key.

## Main Statements

* `Flags.text?_foldl_eq`, `Flags.port?_foldl_eq`, `Flags.isOn_foldl_iff`: what settings
  come to, key by key and switch by switch.
* `Flags.stands_of_text?`, `Flags.isSigned_of_port?`: a text that tokens give stands among them,
  and a port that they give is in range.
* `Flags.eq_of_keys`: nothing else is in flags.
* `Flags.foldl_eq_union`: settings do what the layer that they make does, unless they take
  a port away.
-/

namespace LiveCoding

namespace Flags

/-- A key whose value is a port. -/
def Key.isPort : Key → Bool
  | .sclangPath | .oscHost => false
  | .oscPort | .languageServerPort => true

/-- The flags that want no value. -/
inductive Switch where
  | noLanguageServer
  | quiet
deriving DecidableEq

/-- The setting that turns a switch on. -/
def Switch.setting : Switch → Setting
  | .noLanguageServer => .noLanguageServer
  | .quiet => .quiet

/-- Whether a switch is on. -/
def isOn (flags : Flags) : Switch → Bool
  | .noLanguageServer => flags.noLanguageServer
  | .quiet => flags.quiet

/-- Flags without the value of a key. -/
def without (flags : Flags) : Key → Flags
  | .sclangPath => { flags with sclangPath := none }
  | .oscHost => { flags with oscHost := none }
  | .oscPort => { flags with oscPort := none }
  | .languageServerPort => { flags with languageServerPort := none }

/-- The value that a setting gives a key. -/
def Setting.valueOf? (key : Key) : Setting → Option Token
  | .value other token => if other = key then some token else none
  | .noLanguageServer | .quiet => none

/-- The last value that settings give a key. -/
def lastValue? (key : Key) (settings : List Setting) : Option Token :=
  (settings.filterMap (Setting.valueOf? key)).getLast?

variable {flags later : Flags} {key : Key} {value : Token} {tokens : List Token}
variable {setting : Setting} {settings : List Setting}

/-! ### The last value -/

theorem Setting.valueOf?_eq_some_iff : setting.valueOf? key = some value ↔
    setting = .value key value := by
  cases setting with
  | noLanguageServer | quiet => simp [Setting.valueOf?]
  | value other token => simp [Setting.valueOf?]

theorem lastValue?_cons (key : Key) (setting : Setting) (settings : List Setting) :
    lastValue? key (setting :: settings) = (lastValue? key settings).or (setting.valueOf? key) := by
  rw [lastValue?]
  cases h : setting.valueOf? key with
  | none =>
    rw [List.filterMap_cons_none h, Option.or_none]
    rfl
  | some token =>
    rw [List.filterMap_cons_some h, ← List.singleton_append, List.getLast?_append]
    rfl

theorem mem_of_lastValue? (h : lastValue? key settings = some value) :
    .value key value ∈ settings := by
  obtain ⟨setting, hmem, hvalue⟩ := List.mem_filterMap.mp (List.mem_of_getLast? h)
  rwa [← Setting.valueOf?_eq_some_iff.mp hvalue]

theorem lastValue?_eq_none_iff : lastValue? key settings = none ↔
    ∀ value, .value key value ∉ settings := by
  rw [lastValue?, List.getLast?_eq_none_iff, List.filterMap_eq_nil_iff]
  constructor
  · intro h value hmem
    have given : (Setting.value key value).valueOf? key = some value :=
      Setting.valueOf?_eq_some_iff.mpr rfl
    rw [h _ hmem] at given
    contradiction
  · intro h setting hmem
    cases hvalue : setting.valueOf? key with
    | none => rfl
    | some value =>
      obtain rfl := Setting.valueOf?_eq_some_iff.mp hvalue
      exact absurd hmem (h value)

/-! ### Key by key -/

@[simp]
theorem text?_empty (key : Key) : ({} : Flags).text? key = none := by
  cases key <;> rfl

@[simp]
theorem port?_empty (key : Key) : ({} : Flags).port? key = none := by
  cases key <;> rfl

@[simp]
theorem isOn_empty (switch : Switch) : ({} : Flags).isOn switch = false := by
  cases switch <;> rfl

theorem text?_apply_eq (hkey : key.isPort = false) (flags : Flags) (setting : Setting) :
    (setting.apply flags).text? key = (setting.valueOf? key).or (flags.text? key) := by
  cases setting with
  | noLanguageServer | quiet => cases key <;> rfl
  | value other token =>
    cases key <;> cases other <;> first
      | contradiction
      | rfl
      | exact congrArg some (String.toList_ofList)

theorem port?_apply_eq (hkey : key.isPort = true) (flags : Flags) (setting : Setting) :
    (setting.apply flags).port? key = (setting.valueOf? key).elim (flags.port? key) readSigned? := by
  cases setting with
  | noLanguageServer | quiet => cases key <;> rfl
  | value other token => cases key <;> cases other <;> first | contradiction | rfl

/-- **A text is the last one that was given.** -/
theorem text?_foldl_eq (hkey : key.isPort = false) (flags : Flags) (settings : List Setting) :
    (settings.foldl Setting.apply flags).text? key =
      (lastValue? key settings).or (flags.text? key) := by
  induction settings generalizing flags with
  | nil => rfl
  | cons setting settings ih =>
    rw [List.foldl_cons, ih, text?_apply_eq hkey, lastValue?_cons, Option.or_assoc]

/-- **A port is the last one that was given**, and is gone if that was no number. -/
theorem port?_foldl_eq (hkey : key.isPort = true) (flags : Flags) (settings : List Setting) :
    (settings.foldl Setting.apply flags).port? key =
      (lastValue? key settings).elim (flags.port? key) readSigned? := by
  induction settings generalizing flags with
  | nil => rfl
  | cons setting settings ih =>
    rw [List.foldl_cons, ih, port?_apply_eq hkey, lastValue?_cons]
    cases lastValue? key settings <;> rfl

/-- **A switch is on once it was turned on.** -/
theorem isOn_foldl_iff (switch : Switch) (flags : Flags) (settings : List Setting) :
    (settings.foldl Setting.apply flags).isOn switch = true ↔
      flags.isOn switch = true ∨ switch.setting ∈ settings := by
  induction settings generalizing flags with
  | nil => simp
  | cons setting settings ih =>
    have one : (setting.apply flags).isOn switch = true ↔
        flags.isOn switch = true ∨ switch.setting = setting := by
      cases setting with
      | noLanguageServer | quiet => cases switch <;> simp [Setting.apply, isOn, Switch.setting]
      | value key token =>
        cases key <;> cases switch <;> simp [Setting.apply, put, isOn, Switch.setting]
    rw [List.foldl_cons, ih, one, List.mem_cons, or_assoc]

theorem text?_of_isPort (hkey : key.isPort = true) (flags : Flags) : flags.text? key = none := by
  cases key <;> first | contradiction | rfl

theorem port?_of_not_isPort (hkey : key.isPort = false) (flags : Flags) :
    flags.port? key = none := by
  cases key <;> first | contradiction | rfl

/-- **The text of a key stands among the tokens.** -/
theorem stands_of_text? (h : (ofTokens tokens).text? key = some value) :
    Stands key value tokens := by
  cases hkey : key.isPort with
  | true =>
    rw [text?_of_isPort hkey] at h
    contradiction
  | false =>
    rw [ofTokens_eq, text?_foldl_eq hkey, text?_empty, Option.or_none] at h
    exact stands_of_mem_given (mem_of_lastValue? h)

/-- **A port is a signed number** that was read from a token. -/
theorem isSigned_of_port? {n : Int} (h : (ofTokens tokens).port? key = some n) : IsSigned n := by
  cases hkey : key.isPort with
  | false =>
    rw [port?_of_not_isPort hkey] at h
    contradiction
  | true =>
    rw [ofTokens_eq, port?_foldl_eq hkey, port?_empty] at h
    cases hlast : lastValue? key (given tokens) with
    | none =>
      rw [hlast] at h
      contradiction
    | some token =>
      rw [hlast] at h
      exact isSigned_of_readSigned? h

/-! ### All but one value -/

theorem without_apply_congr {other : Flags} (h : flags.without key = other.without key)
    (setting : Setting) : (setting.apply flags).without key = (setting.apply other).without key := by
  obtain ⟨path, host, port, server, noServer, quiet⟩ := flags
  obtain ⟨path', host', port', server', noServer', quiet'⟩ := other
  cases setting with
  | noLanguageServer | quiet => cases key <;> simp_all [Setting.apply, without]
  | value given token =>
    cases given <;> cases key <;> simp_all [Setting.apply, put, without]

/-- Settings treat flags alike that differ in one value, that value apart. -/
theorem without_foldl_congr {other : Flags} (h : flags.without key = other.without key)
    (settings : List Setting) : (settings.foldl Setting.apply flags).without key =
      (settings.foldl Setting.apply other).without key := by
  induction settings generalizing flags other with
  | nil => exact h
  | cons setting settings ih => exact ih (without_apply_congr h setting)

theorem without_without (flags : Flags) (key : Key) :
    (flags.without key).without key = flags.without key := by
  cases key <;> rfl

theorem port?_without (flags : Flags) (key : Key) : (flags.without key).port? key = none := by
  cases key <;> rfl

/-- A port that is no number takes away the one that is there. -/
theorem put_unreadable (hkey : key.isPort = true) (hvalue : readSigned? value = none)
    (flags : Flags) : flags.put key value = flags.without key := by
  cases key with
  | sclangPath | oscHost => contradiction
  | oscPort | languageServerPort => rw [put, hvalue]; rfl

/-- Flags that differ at most in a port are the same if that is the same. -/
theorem eq_iff_of_without {other : Flags} (hkey : key.isPort = true)
    (h : flags.without key = other.without key) :
    flags = other ↔ flags.port? key = other.port? key := by
  refine ⟨fun same => congrArg (port? · key) same, fun same => ?_⟩
  obtain ⟨path, host, port, server, noServer, quiet⟩ := flags
  obtain ⟨path', host', port', server', noServer', quiet'⟩ := other
  cases key <;> simp_all [Key.isPort, without, port?]

/-! ### Layers -/

/-- **Flags are their values and switches.** -/
theorem eq_of_keys {other : Flags} (texts : ∀ key, flags.text? key = other.text? key)
    (ports : ∀ key, flags.port? key = other.port? key)
    (switches : ∀ switch, flags.isOn switch = other.isOn switch) : flags = other := by
  have injective : Function.Injective (Option.map String.toList) :=
    Option.map_injective fun _ _ => String.toList_injective
  obtain ⟨path, host, port, server, noServer, quiet⟩ := flags
  obtain ⟨path', host', port', server', noServer', quiet'⟩ := other
  obtain rfl : path = path' := injective (texts .sclangPath)
  obtain rfl : host = host' := injective (texts .oscHost)
  obtain rfl : port = port' := ports .oscPort
  obtain rfl : server = server' := ports .languageServerPort
  obtain rfl : noServer = noServer' := switches .noLanguageServer
  obtain rfl : quiet = quiet' := switches .quiet
  rfl

theorem text?_union (flags later : Flags) (key : Key) :
    (flags.union later).text? key = (later.text? key).or (flags.text? key) := by
  cases key with
  | sclangPath => exact Option.map_or
  | oscHost => exact Option.map_or
  | oscPort | languageServerPort => rfl

theorem port?_union (flags later : Flags) (key : Key) :
    (flags.union later).port? key = (later.port? key).or (flags.port? key) := by
  cases key <;> rfl

theorem isOn_union (flags later : Flags) (switch : Switch) :
    (flags.union later).isOn switch = (flags.isOn switch || later.isOn switch) := by
  cases switch <;> rfl

/-- **Settings do what the layer that they make does**, unless one of them takes away a
port that is there. -/
theorem foldl_eq_union (h : ∀ key, key.isPort = true → flags.port? key = none ∨
      ∀ value ∈ lastValue? key settings, (readSigned? value).isSome) :
    settings.foldl Setting.apply flags = flags.union (settings.foldl Setting.apply {}) := by
  refine eq_of_keys ?_ ?_ ?_
  · intro key
    rw [text?_union]
    cases hkey : key.isPort with
    | true => rw [text?_of_isPort hkey, text?_of_isPort hkey, text?_of_isPort hkey]; rfl
    | false =>
      rw [text?_foldl_eq hkey, text?_foldl_eq hkey, Option.or_assoc, text?_empty, Option.none_or]
  · intro key
    rw [port?_union]
    cases hkey : key.isPort with
    | false =>
      rw [port?_of_not_isPort hkey, port?_of_not_isPort hkey, port?_of_not_isPort hkey]; rfl
    | true =>
      rw [port?_foldl_eq hkey, port?_foldl_eq hkey]
      cases hlast : lastValue? key settings with
      | none => rw [Option.elim_none, Option.elim_none, port?_empty, Option.none_or]
      | some value =>
        rcases h key hkey with none | number
        · rw [none]
          exact (Option.or_none).symm
        · obtain ⟨n, hn⟩ := Option.isSome_iff_exists.mp (number value hlast)
          rw [Option.elim_some, Option.elim_some, hn]
          rfl
  · intro switch
    rw [isOn_union, Bool.eq_iff_iff, Bool.or_eq_true, isOn_foldl_iff, isOn_foldl_iff, isOn_empty]
    simp

end Flags

end LiveCoding
