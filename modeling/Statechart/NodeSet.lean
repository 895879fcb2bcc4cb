/-!
# Sets of nodes

Finite sets of node numbers, kept as increasing lists, so that walking through a set is walking in
document order and two sets with the same members are equal (`NodeSet.ext`).
-/

namespace Statechart

/-- A finite set of numbers, as an increasing list. -/
structure NodeSet where
  toList : List Nat
  sorted : toList.Pairwise (· < ·)
  deriving DecidableEq, Repr

namespace NodeSet

instance : Membership Nat NodeSet := ⟨fun s i => i ∈ s.toList⟩

theorem mem_def {i : Nat} {s : NodeSet} : i ∈ s ↔ i ∈ s.toList := Iff.rfl

instance (i : Nat) (s : NodeSet) : Decidable (i ∈ s) := inferInstanceAs (Decidable (i ∈ s.toList))

/-- Increasing lists with the same members are equal. -/
theorem eq_of_sorted {a b : List Nat} (ha : a.Pairwise (· < ·)) (hb : b.Pairwise (· < ·))
    (h : ∀ i, i ∈ a ↔ i ∈ b) : a = b := by
  induction a generalizing b with
  | nil =>
    cases b with
    | nil => rfl
    | cons y b => exact absurd ((h y).2 (by simp)) (by simp)
  | cons x a ih =>
    cases b with
    | nil => exact absurd ((h x).1 (by simp)) (by simp)
    | cons y b =>
      rw [List.pairwise_cons] at ha hb
      have hxy : x = y := by
        rcases List.mem_cons.1 ((h x).1 (by simp)) with hx | hx
        · exact hx
        · rcases List.mem_cons.1 ((h y).2 (by simp)) with hy | hy
          · exact hy.symm
          · have := ha.1 y hy
            have := hb.1 x hx
            omega
      subst hxy
      congr 1
      refine ih ha.2 hb.2 fun i => ⟨fun hi => ?_, fun hi => ?_⟩
      · have := ha.1 i hi
        rcases List.mem_cons.1 ((h i).1 (by simp [hi])) with hix | hib
        · omega
        · exact hib
      · have := hb.1 i hi
        rcases List.mem_cons.1 ((h i).2 (by simp [hi])) with hix | hia
        · omega
        · exact hia

/-- Sets with the same members are equal. -/
@[ext] theorem ext {s t : NodeSet} (h : ∀ i, i ∈ s ↔ i ∈ t) : s = t := by
  obtain ⟨a, ha⟩ := s
  obtain ⟨b, hb⟩ := t
  obtain rfl : a = b := eq_of_sorted ha hb h
  rfl

/-- The set without members. -/
def empty : NodeSet := ⟨[], .nil⟩

/-- Puts a number at its place in an increasing list. -/
def insertSorted (i : Nat) : List Nat → List Nat
  | [] => [i]
  | j :: rest => if i < j then i :: j :: rest else if i = j then j :: rest else j :: insertSorted i rest

theorem mem_insertSorted {i j : Nat} {l : List Nat} : j ∈ insertSorted i l ↔ j = i ∨ j ∈ l := by
  induction l with
  | nil => simp [insertSorted]
  | cons k l ih => unfold insertSorted; split <;> (try split) <;> grind

theorem sorted_insertSorted {i : Nat} {l : List Nat} (h : l.Pairwise (· < ·)) :
    (insertSorted i l).Pairwise (· < ·) := by
  induction l with
  | nil => simp [insertSorted]
  | cons k l ih =>
    rw [List.pairwise_cons] at h
    unfold insertSorted
    split
    · refine List.pairwise_cons.2 ⟨fun j hj => ?_, List.pairwise_cons.2 h⟩
      rcases List.mem_cons.1 hj with rfl | hj
      · assumption
      · have := h.1 j hj
        omega
    · split
      · exact List.pairwise_cons.2 h
      · refine List.pairwise_cons.2 ⟨fun j hj => ?_, ih h.2⟩
        rcases mem_insertSorted.1 hj with rfl | hj
        · omega
        · exact h.1 j hj

/-- Adds a member. -/
def insert (s : NodeSet) (i : Nat) : NodeSet := ⟨insertSorted i s.toList, sorted_insertSorted s.sorted⟩

/-- The members that satisfy `p`. -/
def filter (s : NodeSet) (p : Nat → Bool) : NodeSet := ⟨s.toList.filter p, s.sorted.filter p⟩

/-- Adds the members of a list. -/
def insertAll (s : NodeSet) (l : List Nat) : NodeSet := l.foldl insert s

/-- The set of the members of a list. -/
def ofList (l : List Nat) : NodeSet := empty.insertAll l

/-- The members of either set. -/
def union (s t : NodeSet) : NodeSet := s.insertAll t.toList

/-- The members of the first set that are no members of the second. -/
def diff (s t : NodeSet) : NodeSet := s.filter fun i => !decide (i ∈ t)

/-- Whether the set has no members. -/
def isEmpty (s : NodeSet) : Bool := s.toList.isEmpty

/-- How many members the set has. -/
def size (s : NodeSet) : Nat := s.toList.length

/-- Whether no number is a member of both sets. -/
def disjoint (s t : NodeSet) : Bool := s.toList.all fun i => !decide (i ∈ t)

@[simp] theorem not_mem_empty (i : Nat) : i ∉ empty := by simp [mem_def, empty]

@[simp] theorem mem_insert {s : NodeSet} {i j : Nat} : j ∈ s.insert i ↔ j = i ∨ j ∈ s :=
  mem_insertSorted

@[simp] theorem mem_filter {s : NodeSet} {p : Nat → Bool} {i : Nat} :
    i ∈ s.filter p ↔ i ∈ s ∧ p i := by
  simp [mem_def, filter]

@[simp] theorem mem_insertAll {s : NodeSet} {l : List Nat} {i : Nat} :
    i ∈ s.insertAll l ↔ i ∈ s ∨ i ∈ l := by
  unfold insertAll
  induction l generalizing s with
  | nil => simp
  | cons j l ih => simp only [List.foldl_cons, ih, mem_insert, List.mem_cons]; grind

@[simp] theorem mem_ofList {l : List Nat} {i : Nat} : i ∈ ofList l ↔ i ∈ l := by simp [ofList]

@[simp] theorem mem_union {s t : NodeSet} {i : Nat} : i ∈ s.union t ↔ i ∈ s ∨ i ∈ t :=
  mem_insertAll

@[simp] theorem mem_diff {s t : NodeSet} {i : Nat} : i ∈ s.diff t ↔ i ∈ s ∧ i ∉ t := by
  simp [diff]

theorem disjoint_iff {s t : NodeSet} : s.disjoint t ↔ ∀ i ∈ s, i ∉ t := by
  simp [disjoint, mem_def]

end NodeSet

end Statechart
