import Mathlib.Logic.Function.Basic
import Mathlib.Data.List.Nodup

namespace Ece391.Library

universe u v

/-! # Families of disjoint chains

A `Forest` gives every owner a chain of members, newest first, no member
occurring twice anywhere.  `Linked` ties one chain to a parent relation kept
elsewhere: each member links to the next one and the last is a root.
-/

/-- Consecutive members are linked and the last one is a root. -/
def Linked {π : Type v} (link : π → π → Prop) (root : π → Prop) : List π → Prop
  | [] => True
  | [member] => root member
  | member :: parent :: rest => link member parent ∧ Linked link root (parent :: rest)

namespace Linked

variable {π : Type v} {link changed : π → π → Prop} {root changedRoot : π → Prop}

theorem tail {member : π} {rest : List π} (linked : Linked link root (member :: rest)) :
    Linked link root rest := by
  cases rest with
  | nil => trivial
  | cons parent rest => exact linked.2

theorem congr {chain : List π} (linked : Linked link root chain)
    (links : ∀ member ∈ chain, ∀ parent ∈ chain, link member parent → changed member parent)
    (roots : ∀ member ∈ chain, root member → changedRoot member) :
    Linked changed changedRoot chain := by
  induction chain with
  | nil => trivial
  | cons member rest ih =>
      cases rest with
      | nil => exact roots member (by simp) linked
      | cons parent rest =>
          refine ⟨links member (by simp) parent (by simp) linked.1, ih linked.2 ?_ ?_⟩
          · intro child childMem parent parentMem
            exact links child (List.mem_cons_of_mem _ childMem) parent
              (List.mem_cons_of_mem _ parentMem)
          · exact fun child childMem => roots child (List.mem_cons_of_mem _ childMem)

/-- A member that is no root and not the last one has its parent in the chain. -/
theorem parent_mem {chain : List π} (linked : Linked link root chain) {member : π}
    (inside : member ∈ chain) : root member ∨ ∃ parent ∈ chain.tail, link member parent := by
  induction chain with
  | nil => simp at inside
  | cons newest rest ih =>
      cases rest with
      | nil =>
          obtain rfl : member = newest := by simpa using inside
          exact .inl linked
      | cons parent rest =>
          rcases List.mem_cons.mp inside with same | older
          · exact .inr ⟨parent, by simp, same ▸ linked.1⟩
          · rcases ih linked.2 older with isRoot | ⟨next, nextMem, linkedNext⟩
            · exact .inl isRoot
            · exact .inr ⟨next, List.mem_cons_of_mem _ nextMem, linkedNext⟩

end Linked

/-- Disjoint duplicate-free chains, one for each owner. -/
structure Forest (τ : Type u) (π : Type v) where
  chain : τ → List π
  nodup : ∀ owner, (chain owner).Nodup
  disjoint : ∀ owner other, owner ≠ other → ∀ member ∈ chain owner, member ∉ chain other

namespace Forest

variable {τ : Type u} {π : Type v}

instance : Membership π (Forest τ π) where
  mem forest member := ∃ owner, member ∈ forest.chain owner

theorem owner_unique {forest : Forest τ π} {member : π} {owner other : τ}
    (inOwner : member ∈ forest.chain owner) (inOther : member ∈ forest.chain other) :
    owner = other := by
  by_contra different
  exact forest.disjoint owner other different member inOwner inOther

/-- No owner has a member. -/
def empty : Forest τ π := ⟨fun _ => [], fun _ => .nil, fun _ _ _ _ => nofun⟩

theorem not_mem_empty (member : π) : member ∉ (empty : Forest τ π) := by
  rintro ⟨_, inside⟩
  cases inside

variable [DecidableEq τ]

/-- Put a fresh member in front of an owner's chain. -/
def push (forest : Forest τ π) (owner : τ) (member : π) (fresh : member ∉ forest) :
    Forest τ π where
  chain := Function.update forest.chain owner (member :: forest.chain owner)
  nodup other := by
    by_cases same : other = owner
    · subst same
      rw [Function.update_self]
      exact List.nodup_cons.mpr ⟨fun inside => fresh ⟨_, inside⟩, forest.nodup _⟩
    · rw [Function.update_of_ne same]
      exact forest.nodup other
  disjoint left right different candidate inLeft inRight := by
    by_cases leftOwner : left = owner
    · subst leftOwner
      rw [Function.update_self] at inLeft
      rw [Function.update_of_ne (Ne.symm different)] at inRight
      rcases List.mem_cons.mp inLeft with same | older
      · exact fresh ⟨right, same ▸ inRight⟩
      · exact forest.disjoint _ _ different candidate older inRight
    · rw [Function.update_of_ne leftOwner] at inLeft
      by_cases rightOwner : right = owner
      · subst rightOwner
        rw [Function.update_self] at inRight
        rcases List.mem_cons.mp inRight with same | older
        · exact fresh ⟨left, same ▸ inLeft⟩
        · exact forest.disjoint _ _ different candidate inLeft older
      · rw [Function.update_of_ne rightOwner] at inRight
        exact forest.disjoint _ _ different candidate inLeft inRight

/-- Drop the newest member of an owner's chain. -/
def pop (forest : Forest τ π) (owner : τ) : Forest τ π where
  chain := Function.update forest.chain owner (forest.chain owner).tail
  nodup other := by
    by_cases same : other = owner
    · subst same
      rw [Function.update_self]
      exact (forest.nodup _).sublist (List.tail_sublist _)
    · rw [Function.update_of_ne same]
      exact forest.nodup other
  disjoint left right different candidate inLeft inRight := by
    have within : ∀ other, candidate ∈ Function.update forest.chain owner
        (forest.chain owner).tail other → candidate ∈ forest.chain other := by
      intro other inside
      by_cases same : other = owner
      · subst same
        rw [Function.update_self] at inside
        exact List.mem_of_mem_tail inside
      · rwa [Function.update_of_ne same] at inside
    exact forest.disjoint _ _ different candidate (within _ inLeft) (within _ inRight)

variable {forest : Forest τ π} {owner other : τ} {member candidate : π}

@[simp] theorem push_chain_self (fresh : member ∉ forest) :
    (forest.push owner member fresh).chain owner = member :: forest.chain owner := by
  simp [push]

@[simp] theorem push_chain_of_ne (fresh : member ∉ forest) (different : other ≠ owner) :
    (forest.push owner member fresh).chain other = forest.chain other := by
  simp [push, different]

@[simp] theorem pop_chain_self : (forest.pop owner).chain owner = (forest.chain owner).tail := by
  simp [pop]

@[simp] theorem pop_chain_of_ne (different : other ≠ owner) :
    (forest.pop owner).chain other = forest.chain other := by
  simp [pop, different]

theorem mem_push (fresh : member ∉ forest) :
    candidate ∈ forest.push owner member fresh ↔ candidate = member ∨ candidate ∈ forest := by
  constructor
  · rintro ⟨other, inside⟩
    by_cases same : other = owner
    · subst same
      rw [push_chain_self] at inside
      exact (List.mem_cons.mp inside).imp id fun older => ⟨_, older⟩
    · rw [push_chain_of_ne fresh same] at inside
      exact .inr ⟨other, inside⟩
  · rintro (rfl | ⟨other, inside⟩)
    · exact ⟨owner, by simp⟩
    · refine ⟨other, ?_⟩
      by_cases same : other = owner
      · subst same
        rw [push_chain_self]
        exact List.mem_cons_of_mem _ inside
      · rwa [push_chain_of_ne fresh same]

theorem mem_pop {newest : π} {rest : List π} (shape : forest.chain owner = newest :: rest) :
    candidate ∈ forest.pop owner ↔ candidate ≠ newest ∧ candidate ∈ forest := by
  have distinct := shape ▸ forest.nodup owner
  have newestFresh : newest ∉ rest := (List.nodup_cons.mp distinct).1
  constructor
  · rintro ⟨other, inside⟩
    by_cases same : other = owner
    · subst same
      rw [pop_chain_self, shape, List.tail_cons] at inside
      exact ⟨fun equal => newestFresh (equal ▸ inside), _, by
        rw [shape]; exact List.mem_cons_of_mem _ inside⟩
    · rw [pop_chain_of_ne same] at inside
      refine ⟨fun equal => ?_, other, inside⟩
      subst equal
      exact same (owner_unique inside (by rw [shape]; simp))
  · rintro ⟨different, other, inside⟩
    refine ⟨other, ?_⟩
    by_cases same : other = owner
    · subst same
      rw [pop_chain_self, shape, List.tail_cons]
      rw [shape] at inside
      exact (List.mem_cons.mp inside).resolve_left different
    · rwa [pop_chain_of_ne same]

end Forest

end Ece391.Library
