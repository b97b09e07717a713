import LiveCoding.Frame.Envelope
import LiveCoding.Proofs.Json.Reading

/-!
# What the envelope of a message depends on

Of a body that is a record only the members `id` and `method` tell.  The order of its members,
the members of other keys, escapes in keys and spaces anywhere change nothing of what is told
about it, other than its length.

## Main Definitions

* `Frame.Rearranged`: members in another order, and with others of keys that do not matter.
* `Frame.Understood`: members for which a body is not refused.

## Main Theorems

* `Frame.member?_eq_of_rearranged`: a member that matters is found wherever it stands.
* `Frame.summarize_rearranged`: what is told about a body and about one with its members
  rearranged, and which kind it is.
-/

namespace LiveCoding

namespace Frame

variable {named named' : List (String × Json.Tree)}

/-! ### Members that matter -/

/-- The members in another order, with members added or taken away whose key is none of the
two that matter. -/
inductive Rearranged : List (String × Json.Tree) → List (String × Json.Tree) → Prop where
  | perm {named named' : List (String × Json.Tree)} (h : named.Perm named') :
      Rearranged named named'
  | add {named : List (String × Json.Tree)} {member : String × Json.Tree}
      (notId : member.1 ≠ "id") (notMethod : member.1 ≠ "method") :
      Rearranged named (member :: named)
  | remove {named : List (String × Json.Tree)} {member : String × Json.Tree}
      (notId : member.1 ≠ "id") (notMethod : member.1 ≠ "method") :
      Rearranged (member :: named) named
  | trans {named named' named'' : List (String × Json.Tree)} (h : Rearranged named named')
      (h' : Rearranged named' named'') : Rearranged named named''

theorem filter_cons_of_other {name : String} (hname : name = "id" ∨ name = "method")
    {member : String × Json.Tree} (notId : member.1 ≠ "id") (notMethod : member.1 ≠ "method")
    (named : List (String × Json.Tree)) :
    (member :: named).filter (·.1 == name) = named.filter (·.1 == name) := by
  have hother : member.1 ≠ name := by rcases hname with rfl | rfl <;> assumption
  exact List.filter_cons_of_neg (by simpa using hother)

theorem Rearranged.filter_perm {name : String} (hname : name = "id" ∨ name = "method")
    (h : Rearranged named named') :
    (named.filter (·.1 == name)).Perm (named'.filter (·.1 == name)) := by
  induction h with
  | perm h => exact h.filter _
  | add notId notMethod => rw [filter_cons_of_other hname notId notMethod]
  | remove notId notMethod => rw [filter_cons_of_other hname notId notMethod]
  | trans _ _ ih ih' => exact ih.trans ih'

/-- The two members that matter come at most once, an id has a meaning and a method is a string.
What is null counts as absent. -/
structure Understood (named : List (String × Json.Tree)) : Prop where
  idOnce : (named.map (·.1)).count "id" ≤ 1
  id : ∀ tree, ("id", tree) ∈ named → tree = .null ∨ (tree.value? maxDepth).isSome
  methodOnce : (named.map (·.1)).count "method" ≤ 1
  method : ∀ tree, ("method", tree) ∈ named →
    tree = .null ∨ ∃ raw, tree = .text raw ∧ (Json.readText? raw).isSome

section Members

variable {α : Type} {name : String} {read? : Json.Tree → Option (Option α)}

/-- A member that matters is found wherever it stands. -/
theorem member?_eq_of_rearranged (hname : name = "id" ∨ name = "method")
    (h : Rearranged named named') : member? name read? named = member? name read? named' := by
  have hperm := h.filter_perm hname
  unfold member?
  generalize named.filter (·.1 == name) = found at hperm
  generalize named'.filter (·.1 == name) = found' at hperm
  match found, found' with
  | [], found' => rw [hperm.nil_eq]
  | [member], found' => rw [List.singleton_perm.mp hperm]
  | _ :: _ :: _, [] => exact absurd hperm.length_eq (by simp)
  | _ :: _ :: _, [_] => exact absurd hperm.length_eq (by simp)
  | _ :: _ :: _, _ :: _ :: _ => rfl

theorem mem_filter_key (tree : Json.Tree) :
    (name, tree) ∈ named.filter (·.1 == name) ↔ (name, tree) ∈ named := by
  simp

/-- A member is absent, or there is one of its name and no other. -/
theorem absent_or_unique_of_member? {result : Option α}
    (h : member? name read? named = some result) :
    (result = none ∧ ∀ tree, (name, tree) ∉ named) ∨
      ∃ tree, read? tree = some result ∧ ∀ other, (name, other) ∈ named ↔ other = tree := by
  unfold member? at h
  split at h
  · next hfilter =>
    refine .inl ⟨(Option.some.inj h).symm, fun tree htree => ?_⟩
    rw [← mem_filter_key, hfilter] at htree
    exact List.not_mem_nil htree
  · next key tree hfilter =>
    have hfound : (key, tree) ∈ named.filter (·.1 == name) :=
      hfilter ▸ List.mem_singleton_self (key, tree)
    obtain rfl : key = name := eq_of_beq (List.mem_filter.mp hfound).2
    refine .inr ⟨tree, h, fun other => ?_⟩
    rw [← mem_filter_key, hfilter, List.mem_singleton, Prod.mk.injEq]
    exact and_iff_right rfl
  · exact absurd h (Option.some_ne_none result).symm

/-- A member counts as absent if null is all that stands under its name. -/
theorem eq_none_iff_of_member? (hnull : ∀ tree, read? tree = some none ↔ tree = .null)
    {result : Option α} (h : member? name read? named = some result) :
    result = none ↔ ∀ tree, (name, tree) ∈ named → tree = .null := by
  rcases absent_or_unique_of_member? h with ⟨hresult, habsent⟩ | ⟨tree, hread, honly⟩
  · exact iff_of_true hresult fun tree htree => absurd htree (habsent tree)
  · calc
      result = none ↔ read? tree = some none := by rw [hread, Option.some.injEq]
      _ ↔ tree = .null := hnull tree
      _ ↔ ∀ other, (name, other) ∈ named → other = .null := by simp [honly]

/-- A member is found, or absent, if its key does not come twice and what stands under it is
understood. -/
theorem isSome_member?_iff :
    (member? name read? named).isSome ↔
      (named.map (·.1)).count name ≤ 1 ∧ ∀ tree, (name, tree) ∈ named → (read? tree).isSome := by
  have hcount : (named.map (·.1)).count name = (named.filter (·.1 == name)).length := by
    rw [List.count, List.countP_map, List.countP_eq_length_filter]
    rfl
  have hmem (tree : Json.Tree) : (name, tree) ∈ named ↔ (name, tree) ∈ named.filter (·.1 == name) :=
    (mem_filter_key tree).symm
  simp only [hcount, hmem, member?]
  generalize hfilter : named.filter (·.1 == name) = found
  match found with
  | [] => simp
  | [(key, tree)] =>
    have hfound : (key, tree) ∈ named.filter (·.1 == name) :=
      hfilter ▸ List.mem_singleton_self (key, tree)
    obtain rfl : key = name := eq_of_beq (List.mem_filter.mp hfound).2
    simp
  | _ :: _ :: _ => simp

end Members

theorem readId?_eq_some_none_iff (tree : Json.Tree) : readId? tree = some none ↔ tree = .null := by
  cases tree <;> simp [readId?]

theorem readMethod?_eq_some_none_iff (tree : Json.Tree) :
    readMethod? tree = some none ↔ tree = .null := by
  cases tree <;> simp [readMethod?]

theorem exists_raw_of_readMethod? {tree : Json.Tree} {method : String}
    (h : readMethod? tree = some (some method)) : ∃ raw, tree = .text raw := by
  cases tree with
  | text raw => exact ⟨raw, rfl⟩
  | _ => simp [readMethod?] at h

theorem isSome_readId?_iff (tree : Json.Tree) :
    (readId? tree).isSome ↔ tree = .null ∨ (tree.value? maxDepth).isSome := by
  cases tree <;> simp [readId?]

theorem isSome_readMethod?_iff (tree : Json.Tree) :
    (readMethod? tree).isSome ↔
      tree = .null ∨ ∃ raw, tree = .text raw ∧ (Json.readText? raw).isSome := by
  cases tree <;> simp [readMethod?]

/-- An id is told if one other than null is written. -/
theorem id_ne_none_iff {id : Option Json.Value} (h : member? "id" readId? named = some id) :
    id ≠ none ↔ ∃ tree, tree ≠ .null ∧ ("id", tree) ∈ named := by
  rw [Ne, eq_none_iff_of_member? readId?_eq_some_none_iff h]
  push Not
  exact exists_congr fun tree => and_comm

/-- A method is told if one is written, and then it is a string. -/
theorem method_ne_none_iff {method : Option String}
    (h : member? "method" readMethod? named = some method) :
    method ≠ none ↔ ∃ raw, ("method", .text raw) ∈ named := by
  constructor
  · intro hmethod
    obtain ⟨name, rfl⟩ := Option.ne_none_iff_exists'.mp hmethod
    rcases absent_or_unique_of_member? h with ⟨hnone, _⟩ | ⟨tree, hread, honly⟩
    · exact absurd hnone hmethod
    · obtain ⟨raw, rfl⟩ := exists_raw_of_readMethod? hread
      exact ⟨raw, (honly _).mpr rfl⟩
  · rintro ⟨raw, hraw⟩ hmethod
    have hnull := (eq_none_iff_of_member? readMethod?_eq_some_none_iff h).mp hmethod _ hraw
    exact Json.Tree.noConfusion hnull

/-! ### The summary -/

theorem Envelope.kind_eq_request_iff (envelope : Envelope) :
    envelope.kind = .request ↔ envelope.method ≠ none ∧ envelope.id ≠ none := by
  obtain ⟨_ | _, _ | _⟩ := envelope <;> simp [kind]

theorem Envelope.kind_eq_notification_iff (envelope : Envelope) :
    envelope.kind = .notification ↔ envelope.method ≠ none ∧ envelope.id = none := by
  obtain ⟨_ | _, _ | _⟩ := envelope <;> simp [kind]

theorem Envelope.kind_eq_response_iff (envelope : Envelope) :
    envelope.kind = .response ↔ envelope.method = none := by
  obtain ⟨_ | _, _ | _⟩ := envelope <;> simp [kind]

/-- The envelope of a record whose keys are understood. -/
def Envelope.ofMembers? (named : List (String × Json.Tree)) : Option Envelope := do
  let id ← member? "id" readId? named
  let method ← member? "method" readMethod? named
  return { id, method }

theorem Envelope.ofMembers?_eq_some_iff {envelope : Envelope} :
    Envelope.ofMembers? named = some envelope ↔
      member? "id" readId? named = some envelope.id ∧
        member? "method" readMethod? named = some envelope.method := by
  unfold ofMembers?
  obtain ⟨id, method⟩ := envelope
  simp [Option.bind_eq_some_iff]

theorem Envelope.isSome_ofMembers?_iff :
    (Envelope.ofMembers? named).isSome ↔ Understood named := by
  have hboth : (Envelope.ofMembers? named).isSome ↔
      (member? "id" readId? named).isSome ∧ (member? "method" readMethod? named).isSome := by
    unfold ofMembers?
    cases member? "id" readId? named <;> cases member? "method" readMethod? named <;> simp
  simp only [hboth, isSome_member?_iff, isSome_readId?_iff, isSome_readMethod?_iff]
  constructor
  · rintro ⟨⟨idOnce, id⟩, methodOnce, method⟩
    exact ⟨idOnce, id, methodOnce, method⟩
  · rintro ⟨idOnce, id, methodOnce, method⟩
    exact ⟨⟨idOnce, id⟩, methodOnce, method⟩

theorem Envelope.ofMembers?_eq_of_rearranged (h : Rearranged named named') :
    Envelope.ofMembers? named' = Envelope.ofMembers? named := by
  rw [ofMembers?, ofMembers?, member?_eq_of_rearranged (.inl rfl) h,
    member?_eq_of_rearranged (.inr rfl) h]

/-- What is told about a body of this length with this envelope. -/
def Envelope.summary (envelope : Envelope) (length : Nat) : Summary :=
  { kind := envelope.kind
    method := envelope.method
    id := envelope.id
    length }

/-- Any text of a record is summarized by its members. -/
theorem summarize_record {body : List UInt8} {members : List (List UInt8 × Json.Tree)}
    (hbody : (Json.Tree.record members).Padded body) (hkeys : readKeys? members = some named) :
    summarize body =
      match Envelope.ofMembers? named with
      | none => .error .notMessage
      | some envelope => .ok (envelope.summary body.length) := by
  have henvelope : (Json.parse? body >>= Envelope.ofTree?) = Envelope.ofMembers? named := by
    rw [Json.parse?_of_padded hbody]
    change (readKeys? members >>= Envelope.ofMembers?) = _
    rw [hkeys]
    rfl
  rw [summarize, henvelope]
  rfl

/-- **What is told about a frame depends on its members `id` and `method` only.**  Bodies that
write the same members but for their order and for members of other keys, with any spaces, are
refused alike, and told alike but for the length.  A body is refused only for these two members.
One that is not refused is a request if its method is a string and it has an id other than null,
a notification if its method is a string and its id is absent or null, and a response if its
method is absent or null. -/
theorem summarize_rearranged {body body' : List UInt8}
    {members members' : List (List UInt8 × Json.Tree)}
    (hbody : (Json.Tree.record members).Padded body)
    (hbody' : (Json.Tree.record members').Padded body')
    (hkeys : readKeys? members = some named) (hkeys' : readKeys? members' = some named')
    (h : Rearranged named named') :
    summarize body' =
        (summarize body).map (fun summary => { summary with length := body'.length }) ∧
      ((∃ summary, summarize body = .ok summary) ↔ Understood named) ∧
      ∀ summary, summarize body = .ok summary →
        summary.length = body.length ∧
        (summary.kind = .request ↔
          (∃ raw, ("method", .text raw) ∈ named) ∧ ∃ id, id ≠ .null ∧ ("id", id) ∈ named) ∧
        (summary.kind = .notification ↔
          (∃ raw, ("method", .text raw) ∈ named) ∧ ∀ id, ("id", id) ∈ named → id = .null) ∧
        (summary.kind = .response ↔ ∀ method, ("method", method) ∈ named → method = .null) := by
  have hsummary := summarize_record hbody hkeys
  have hsummary' := summarize_record hbody' hkeys'
  rw [Envelope.ofMembers?_eq_of_rearranged h] at hsummary'
  rw [hsummary, hsummary', ← Envelope.isSome_ofMembers?_iff]
  cases henvelope : Envelope.ofMembers? named with
  | none => exact ⟨rfl, iff_of_false nofun nofun, nofun⟩
  | some envelope =>
    obtain ⟨hid, hmethod⟩ := Envelope.ofMembers?_eq_some_iff.mp henvelope
    refine ⟨rfl, iff_of_true ⟨_, rfl⟩ rfl, ?_⟩
    rintro _ ⟨⟩
    refine ⟨rfl, ?_, ?_, ?_⟩
    · rw [← method_ne_none_iff hmethod, ← id_ne_none_iff hid]
      exact envelope.kind_eq_request_iff
    · rw [← method_ne_none_iff hmethod, ← eq_none_iff_of_member? readId?_eq_some_none_iff hid]
      exact envelope.kind_eq_notification_iff
    · rw [← eq_none_iff_of_member? readMethod?_eq_some_none_iff hmethod]
      exact envelope.kind_eq_response_iff

open Json Json.Lexer in
/-- A request, and the same one with a space, a member that nests, and its method in front under
an escaped key. -/
theorem summarize_rearranged_request :
    let one : Numeral := { negative := false, whole := [1], fraction := [], exponent := none }
    let body := asciiBytes "\x7b\"id\":1,\"method\":\"a\"\x7d"
    let body' := asciiBytes "\x7b\"m\\u0065thod\":\"a\",\"params\":[[\x7b\x7d]], \"id\":1\x7d"
    let members : List (List UInt8 × Tree) :=
      [(asciiBytes "id", .number one), (asciiBytes "method", .text (asciiBytes "a"))]
    let members' : List (List UInt8 × Tree) :=
      [(asciiBytes "m\\u0065thod", .text (asciiBytes "a")),
        (asciiBytes "params", .list [.list [.record []]]), (asciiBytes "id", .number one)]
    let named : List (String × Tree) :=
      [("id", .number one), ("method", .text (asciiBytes "a"))]
    let named' : List (String × Tree) :=
      [("method", .text (asciiBytes "a")), ("params", .list [.list [.record []]]),
        ("id", .number one)]
    (Tree.record members).Padded body ∧ (Tree.record members').Padded body' ∧
      readKeys? members = some named ∧ readKeys? members' = some named' ∧
      Rearranged named named' ∧
      summarize body' =
        (summarize body).map (fun summary => { summary with length := body'.length }) ∧
      (summarize body').toOption.map (·.kind) = some .request := by
  intro one body body' members members' named named'
  have hone : (Tree.number one).Padded (asciiBytes "1") :=
    (Tree.Written.number (@Numeral.Written.mk (asciiBytes "1") [] [] one
      (.digits (by decide) .nil) .none .none)).padded
  have hname : IsRaw (asciiBytes "a") := isRaw_of_plain (by decide)
  have hfirst : Tree.MemberWritten (asciiBytes "id", .number one) (asciiBytes "\"id\":1") :=
    @Tree.MemberWritten.mk [] (asciiBytes "id") [] (asciiBytes "1") _ nofun
      (isRaw_of_plain (by decide)) nofun hone
  have hsecond : Tree.MemberWritten (asciiBytes "method", .text (asciiBytes "a"))
      (asciiBytes "\"method\":\"a\"") :=
    @Tree.MemberWritten.mk [] (asciiBytes "method") [] (asciiBytes "\"a\"") _ nofun
      (isRaw_of_plain (by decide)) nofun (Tree.Written.text hname).padded
  have hbody : (Tree.record members).Padded body :=
    (Tree.Written.record (List.cons_ne_nil _ _) (.cons hfirst (.cons hsecond .nil))).padded
  have hescape : IsRaw (asciiBytes "m\\u0065thod") :=
    .plain (by decide) (by decide) (by decide)
      (@IsRaw.unit (asciiBytes "0065") (asciiBytes "thod") rfl
        (List.all_eq_true.mp (by decide))
        (isRaw_of_plain (by decide)))
  have hfirst' : Tree.MemberWritten (asciiBytes "m\\u0065thod", .text (asciiBytes "a"))
      (asciiBytes "\"m\\u0065thod\":\"a\"") :=
    @Tree.MemberWritten.mk [] (asciiBytes "m\\u0065thod") [] (asciiBytes "\"a\"") _ nofun
      hescape nofun (Tree.Written.text hname).padded
  have hnested : (Tree.list [.list [.record []]]).Padded (asciiBytes "[[\x7b\x7d]]") :=
    (Tree.Written.list (List.cons_ne_nil _ _) (.cons (Tree.Written.list (List.cons_ne_nil _ _)
      (.cons (@Tree.Written.emptyRecord [] nofun).padded .nil)).padded .nil)).padded
  have hsecond' : Tree.MemberWritten (asciiBytes "params", .list [.list [.record []]])
      (asciiBytes "\"params\":[[\x7b\x7d]]") :=
    @Tree.MemberWritten.mk [] (asciiBytes "params") [] (asciiBytes "[[\x7b\x7d]]") _ nofun
      (isRaw_of_plain (by decide)) nofun hnested
  have hthird' : Tree.MemberWritten (asciiBytes "id", .number one) (asciiBytes " \"id\":1") :=
    @Tree.MemberWritten.mk [32] (asciiBytes "id") [] (asciiBytes "1") _ (by decide)
      (isRaw_of_plain (by decide)) nofun hone
  have hbody' : (Tree.record members').Padded body' :=
    (Tree.Written.record (List.cons_ne_nil _ _)
      (.cons hfirst' (.cons hsecond' (.cons hthird' .nil)))).padded
  have hid : readText? (asciiBytes "id") = some "id" := by decide +kernel
  have hmethod : readText? (asciiBytes "method") = some "method" := by decide +kernel
  have hescaped : readText? (asciiBytes "m\\u0065thod") = some "method" := by decide +kernel
  have hparams : readText? (asciiBytes "params") = some "params" := by decide +kernel
  have hkeys : readKeys? members = some named := by
    simp only [readKeys?, members, List.mapM_cons, List.mapM_nil, hid, hmethod, Option.map_some]
    rfl
  have hkeys' : readKeys? members' = some named' := by
    simp only [readKeys?, members', List.mapM_cons, List.mapM_nil, hid, hescaped, hparams,
      Option.map_some]
    rfl
  have hmoved : Rearranged named named' :=
    (Rearranged.perm (List.Perm.swap _ _ _)).trans
      ((Rearranged.add (by decide) (by decide)).trans (.perm (List.Perm.swap _ _ _)))
  obtain ⟨hsame, _⟩ := summarize_rearranged hbody hbody' hkeys hkeys' hmoved
  exact ⟨hbody, hbody', hkeys, hkeys', hmoved, hsame, by decide +kernel⟩

end Frame

end LiveCoding
