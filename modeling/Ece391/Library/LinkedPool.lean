import Mathlib.Data.Fintype.Card
import Mathlib.Data.List.Nodup

namespace Ece391.Library

universe u v

/-! # Singly linked lists over a pool of nodes

A pointer is `none` or a node.  Loops that follow the links take the number of
pointers they look at as fuel and have no result when it does not suffice.
-/

variable {α : Type u} {σ : Type v} {next other : α → Option α} {head pointer target : Option α}
  {node last : α} {nodes left right : List α} {fuel : Nat}

/-- Following the links from `pointer` passes `nodes` and arrives at `target`. -/
def Links (next : α → Option α) : (pointer : Option α) → List α → (target : Option α) → Prop
  | pointer, [], target => pointer = target
  | pointer, node :: rest, target => pointer = some node ∧ Links next (next node) rest target

/-- The nodes from `pointer` up to the end of the list. -/
def LinkedList (next : α → Option α) (pointer : Option α) (nodes : List α) : Prop :=
  Links next pointer nodes none

theorem links_append :
    Links next pointer (left ++ right) target ↔
      ∃ middle, Links next pointer left middle ∧ Links next middle right target := by
  induction left generalizing pointer with
  | nil =>
      constructor
      · intro links
        exact ⟨pointer, rfl, links⟩
      · rintro ⟨middle, rfl, links⟩
        exact links
  | cons node rest ih =>
      simp only [List.cons_append, Links, ih]
      constructor
      · rintro ⟨isNode, middle, first, second⟩
        exact ⟨middle, ⟨isNode, first⟩, second⟩
      · rintro ⟨middle, ⟨isNode, first⟩, second⟩
        exact ⟨isNode, middle, first, second⟩

theorem links_cons_node :
    Links next pointer (left ++ node :: right) target ↔
      Links next pointer left (some node) ∧ Links next (next node) right target := by
  rw [links_append]
  constructor
  · rintro ⟨middle, first, isNode, second⟩
    exact ⟨isNode ▸ first, second⟩
  · rintro ⟨first, second⟩
    exact ⟨some node, first, rfl, second⟩

/-- The links of nodes that are not passed do not matter. -/
theorem Links.congr (links : Links next pointer nodes target)
    (agree : ∀ node ∈ nodes, other node = next node) : Links other pointer nodes target := by
  induction nodes generalizing pointer with
  | nil => exact links
  | cons node rest ih =>
      obtain ⟨isNode, remaining⟩ := links
      refine ⟨isNode, ?_⟩
      rw [agree node (List.mem_cons_self ..)]
      exact ih remaining fun member inside => agree member (List.mem_cons_of_mem _ inside)

theorem LinkedList.unique (linked : LinkedList next pointer left) (again : LinkedList next pointer right) :
    left = right := by
  induction left generalizing pointer right with
  | nil =>
      cases right with
      | nil => rfl
      | cons node rest => cases linked.symm.trans again.1
  | cons node rest ih =>
      cases right with
      | nil => cases again.symm.trans linked.1
      | cons second others =>
          obtain ⟨isNode, remaining⟩ := linked
          obtain ⟨isSecond, others⟩ := again
          cases isNode.symm.trans isSecond
          rw [ih remaining others]

theorem LinkedList.nodup (linked : LinkedList next pointer nodes) : nodes.Nodup := by
  induction nodes generalizing pointer with
  | nil => exact List.nodup_nil
  | cons node rest ih =>
      refine List.nodup_cons.mpr ⟨fun again => ?_, ih linked.2⟩
      obtain ⟨between, others, rfl⟩ := List.append_of_mem again
      have fromNode : LinkedList next (next node) others := (links_cons_node.mp linked.2).2
      have same := fromNode.unique linked.2
      have lengths := congrArg List.length same
      rw [List.length_append, List.length_cons] at lengths
      omega

theorem LinkedList.length_le [Fintype α] (linked : LinkedList next pointer nodes) :
    nodes.length ≤ Fintype.card α := linked.nodup.length_le_card

section Changes

variable [DecidableEq α]

theorem Links.update (links : Links next pointer nodes target) (outside : node ∉ nodes)
    (link : Option α) : Links (Function.update next node link) pointer nodes target := by
  refine links.congr fun member inside => ?_
  have differs : member ≠ node := fun same => outside (same ▸ inside)
  exact Function.update_of_ne differs _ _

theorem LinkedList.push (linked : LinkedList next head nodes) (fresh : node ∉ nodes) :
    LinkedList (Function.update next node head) (some node) (node :: nodes) := by
  refine ⟨rfl, ?_⟩
  rw [Function.update_self]
  exact linked.update fresh head

/-- A node that is on the list already closes a cycle when it is put in front. -/
theorem LinkedList.push_cycle (linked : LinkedList next head nodes) (again : node ∈ nodes) :
    ¬ ∃ others, LinkedList (Function.update next node head) (some node) others := by
  rintro ⟨others, cycle⟩
  obtain ⟨before, behind, isFirst⟩ := List.eq_append_cons_of_mem again
  obtain ⟨rfl, firstTime⟩ := isFirst
  have upTo := (links_cons_node.mp linked).1.update firstTime head
  cases others with
  | nil => cases cycle
  | cons first rest =>
      obtain ⟨isFirst, remaining⟩ := cycle
      cases isFirst
      rw [Function.update_self] at remaining
      have around : LinkedList (Function.update next node head) head (before ++ node :: rest) :=
        links_cons_node.mpr ⟨upTo, by rw [Function.update_self]; exact remaining⟩
      have lengths := congrArg List.length (LinkedList.unique remaining around)
      rw [List.length_append, List.length_cons] at lengths
      omega

/-- A place that holds a pointer: the head of the list or the link of a node. -/
def pointerAt (next : α → Option α) (head : Option α) : Option α → Option α
  | none => head
  | some node => next node

/-- The links and the head with another pointer at a place. -/
def setPointer (next : α → Option α) (head : Option α) (pointer : Option α) :
    (place : Option α) → (α → Option α) × Option α
  | none => (next, pointer)
  | some node => (Function.update next node pointer, head)

/-- The first place on the way from `place` that points to `node`. -/
def findPlace (next : α → Option α) (head : Option α) (node : α) :
    (fuel : Nat) → (place : Option α) → Option (Option α)
  | 0, _ => none
  | fuel + 1, place =>
      if pointerAt next head place = some node then some place
      else (pointerAt next head place).bind fun passed => findPlace next head node fuel (some passed)

theorem findPlace_eq {place : Option α}
    (links : Links next (pointerAt next head place) left (some node)) (before : node ∉ left)
    (enough : left.length < fuel) :
    findPlace next head node fuel place = some (left.getLast?.or place) := by
  induction left generalizing place fuel with
  | nil =>
      obtain ⟨fuel, rfl⟩ := Nat.exists_eq_add_one_of_ne_zero (Nat.ne_of_gt enough)
      have isNode : pointerAt next head place = some node := links
      rw [findPlace, if_pos isNode]
      rfl
  | cons first rest ih =>
      obtain ⟨fuel, rfl⟩ := Nat.exists_eq_add_one_of_ne_zero (Nat.ne_of_gt (Nat.zero_lt_of_lt enough))
      obtain ⟨isFirst, remaining⟩ := links
      have passes : pointerAt next head place ≠ some node := by
        intro same
        cases isFirst.symm.trans same
        exact before (List.mem_cons_self ..)
      have later := @ih fuel (some first) remaining
        (fun member => before (List.mem_cons_of_mem _ member)) (Nat.lt_of_succ_lt_succ enough)
      rw [findPlace, if_neg passes, isFirst, Option.bind_some, later, List.getLast?_cons]
      cases rest.getLast? with
      | none => rfl
      | some last => rfl

/-- Where the place that points to a node takes over its link, the node is off
the list. -/
theorem LinkedList.unlink (linked : LinkedList next head (left ++ node :: right)) :
    LinkedList (setPointer next head (next node) left.getLast?).1
      (setPointer next head (next node) left.getLast?).2 (left ++ right) := by
  obtain ⟨upTo, behind⟩ := links_cons_node.mp linked
  have distinct := linked.nodup
  cases left using List.reverseRecOn with
  | nil =>
      cases upTo
      exact behind
  | append_singleton before last =>
      rw [List.getLast?_concat, List.append_assoc]
      obtain ⟨toLast, isNode⟩ := links_cons_node.mp upTo
      have once := List.nodup_append.mp distinct
      have notBefore : last ∉ before := by
        have inLeft := (List.nodup_append.mp once.1).2.2
        exact fun member => inLeft last member last (List.mem_singleton_self _) rfl
      have notBehind : last ∉ right := fun member =>
        once.2.2 last (List.mem_append_right _ (List.mem_singleton_self _)) last
          (List.mem_cons_of_mem _ member) rfl
      have fromLast : Links (Function.update next last (next node))
          (Function.update next last (next node) last) right none := by
        rw [Function.update_self]
        exact behind.update notBehind _
      exact links_cons_node.mpr ⟨toLast.update notBefore _, fromLast⟩

end Changes

/-- The first node from `pointer` on that passes a test. -/
def search (next : α → Option α) (test : α → Bool) :
    (fuel : Nat) → (pointer : Option α) → Option (Option α)
  | 0, _ => none
  | _ + 1, none => some none
  | fuel + 1, some node =>
      if test node then some (some node) else search next test fuel (next node)

theorem LinkedList.search_eq {test : α → Bool} (linked : LinkedList next pointer nodes)
    (enough : nodes.length < fuel) : search next test fuel pointer = some (nodes.find? test) := by
  induction nodes generalizing pointer fuel with
  | nil =>
      obtain ⟨fuel, rfl⟩ := Nat.exists_eq_add_one_of_ne_zero (Nat.ne_of_gt enough)
      cases linked
      rfl
  | cons node rest ih =>
      obtain ⟨fuel, rfl⟩ := Nat.exists_eq_add_one_of_ne_zero (Nat.ne_of_gt (Nat.zero_lt_of_lt enough))
      obtain ⟨rfl, remaining⟩ := linked
      cases found : test node with
      | true => simp only [search, found, List.find?, if_true]
      | false =>
          simp only [search, found, List.find?]
          exact ih remaining (Nat.lt_of_succ_lt_succ enough)

/-- `visit` at every node from `pointer` on; the link of a node is read after its
visit. -/
def traverse (link : σ → α → Option α) (visit : σ → α → σ) :
    (fuel : Nat) → (pointer : Option α) → (state : σ) → Option σ
  | 0, _, _ => none
  | _ + 1, none, state => some state
  | fuel + 1, some node, state =>
      traverse link visit fuel (link (visit state node) node) (visit state node)

theorem LinkedList.traverse_eq {link : σ → α → Option α} {visit : σ → α → σ} {state : σ}
    (keeps : ∀ state node, link (visit state node) = link state)
    (linked : LinkedList (link state) pointer nodes) (enough : nodes.length < fuel) :
    traverse link visit fuel pointer state = some (nodes.foldl visit state) := by
  induction nodes generalizing pointer fuel state with
  | nil =>
      obtain ⟨fuel, rfl⟩ := Nat.exists_eq_add_one_of_ne_zero (Nat.ne_of_gt enough)
      cases linked
      rfl
  | cons node rest ih =>
      obtain ⟨fuel, rfl⟩ := Nat.exists_eq_add_one_of_ne_zero (Nat.ne_of_gt (Nat.zero_lt_of_lt enough))
      obtain ⟨rfl, remaining⟩ := linked
      rw [traverse, List.foldl_cons]
      refine ih ?_ (Nat.lt_of_succ_lt_succ enough)
      rw [keeps]
      exact remaining

end Ece391.Library
