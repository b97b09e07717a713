import LiveCoding.Json.Tree

/-!
# The tokens of a tree

A tree has one row of tokens that writes it, and the builder reads that row back.  What the
builder is in the middle of does not matter to it: after the tokens of a tree it stands as if
it had been handed the tree.

## Main Definitions

* `Json.Tree.tokens`: the tokens that write a tree.

## Main Theorems

* `Json.Builder.places`: the tokens of a tree put it in its place.
* `Json.Tree.ofTokens?_tokens`: the tokens of a tree are read as the tree.
-/

namespace LiveCoding

namespace Json

theorem Tree.sizeOf_member_lt {member : List UInt8 × Tree} {members : List (List UInt8 × Tree)}
    (h : member ∈ members) : sizeOf member.2 < sizeOf (Tree.record members) := by
  have hmember : sizeOf member < sizeOf members := List.sizeOf_lt_of_mem h
  obtain ⟨raw, tree⟩ := member
  simp only [Prod.mk.sizeOf_spec, Tree.record.sizeOf_spec] at hmember ⊢
  omega

/-- The tokens that write a tree. -/
def Tree.tokens : Tree → List Token
  | .null => [.null]
  | .bool value => [.bool value]
  | .number numeral => [.number numeral]
  | .text raw => [.text raw]
  | .list items => .listOpen :: ([.comma].intercalate (items.map Tree.tokens) ++ [.listClose])
  | .record members =>
    .recordOpen ::
      ([.comma].intercalate (members.map fun member => .text member.1 :: .colon :: member.2.tokens)
        ++ [.recordClose])
decreasing_by
  · have := List.sizeOf_lt_of_mem ‹_›
    simp only [Tree.list.sizeOf_spec]
    omega
  · exact Tree.sizeOf_member_lt ‹_›

/-! ### The builder -/

namespace Builder

variable {around : List Open} {mayClose : Bool}

theorem step?_value {token : Token} (h : token ≠ .listClose) :
    step? (.value around mayClose) token = startValue? around token := by
  cases token <;> first | rfl | exact absurd rfl h

/-- The tokens of a tree, read wherever a value may stand, put the tree in its place. -/
def Places (tree : Tree) : Prop :=
  ∀ (around : List Open) (mayClose : Bool),
    tree.tokens.foldlM step? (.value around mayClose) = some (place tree around)

/-- What stands between commas goes into the container that is open, if each of the parts
does.  Only in front of the first one may the container still be closed. -/
theorem foldlM_joined {α : Type} (row : α → List Token) (start : Bool → List α → Builder)
    (behind : List α → Builder)
    (comma : ∀ done, step? (behind done) .comma = some (start false done)) {parts : List α}
    (nonempty : parts ≠ [])
    (h : ∀ part ∈ parts, ∀ mayClose done,
      (row part).foldlM step? (start mayClose done) = some (behind (part :: done)))
    (mayClose : Bool) (done : List α) :
    ([.comma].intercalate (parts.map row)).foldlM step? (start mayClose done) =
      some (behind (parts.reverse ++ done)) := by
  induction parts generalizing mayClose done with
  | nil => exact absurd rfl nonempty
  | cons part rest ih =>
    obtain ⟨hpart, hrest⟩ := List.forall_mem_cons.mp h
    cases rest with
    | nil =>
      rw [List.map_cons, List.map_nil, List.intercalate_singleton]
      exact hpart mayClose done
    | cons next rest =>
      have hlater := ih (List.cons_ne_nil next rest) hrest false (part :: done)
      rw [List.map_cons] at hlater
      rw [List.map_cons, List.map_cons, List.intercalate_cons_cons, List.append_assoc,
        List.foldlM_append, hpart mayClose done, List.reverse_cons, List.append_assoc]
      change ([.comma] ++ _).foldlM step? (behind (part :: done)) = _
      rw [List.singleton_append, List.foldlM_cons, comma]
      exact hlater

theorem places (tree : Tree) : Places tree := by
  induction tree using Tree.tokens.induct with
  | case1 | case2 | case3 | case4 =>
    intro around mayClose
    rw [Tree.tokens, List.foldlM_cons, step?_value (by simp)]
    rfl
  | case5 items ih =>
    intro around mayClose
    rw [Tree.tokens, List.foldlM_cons, step?_value (by simp)]
    cases items with
    | nil => rfl
    | cons item rest =>
      have hitems := foldlM_joined Tree.tokens
        (fun mayClose done => .value (.list done :: around) mayClose) (.afterItem around)
        (fun _ => rfl) (List.cons_ne_nil item rest)
        (fun item hitem mayClose done => ih item hitem (.list done :: around) mayClose) true []
      change List.foldlM step? (.value (.list [] :: around) true) _ = _
      rw [List.foldlM_append, hitems, List.append_nil]
      exact congrArg (fun items => some (place (.list items) around)) (List.reverse_reverse _)
  | case6 members ih =>
    intro around mayClose
    rw [Tree.tokens, List.foldlM_cons, step?_value (by simp)]
    cases members with
    | nil => rfl
    | cons member rest =>
      have hmembers := foldlM_joined
        (fun member : List UInt8 × Tree => .text member.1 :: .colon :: member.2.tokens)
        (fun mayClose done => .key around done mayClose) (.afterMember around)
        (fun _ => rfl) (List.cons_ne_nil member rest)
        (fun member hmember _ done => ih member hmember (.record done member.1 :: around) false)
        true []
      change List.foldlM step? (.key around [] true) _ = _
      rw [List.foldlM_append, hmembers, List.append_nil]
      exact congrArg (fun members => some (place (.record members) around))
        (List.reverse_reverse _)

end Builder

/-- The tokens of a tree are read as the tree. -/
theorem Tree.ofTokens?_tokens (tree : Tree) : Tree.ofTokens? tree.tokens = some tree := by
  rw [Tree.ofTokens?, Builder.places tree [] false]
  rfl

end Json

end LiveCoding
