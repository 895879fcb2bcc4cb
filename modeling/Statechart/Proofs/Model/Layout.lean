import Statechart.Chart.Build
import Statechart.Proofs.Model.Ancestry

/-!
# The layout of a model

A `Branch` is a node with everything that is to stand below it.  Where branches are added one after
the other, each node before what is below it, the numbers of a branch are an interval that starts at
its root.

* `Model.Holds`: a branch stands in a model from some number on;
* `grown_growAll`, `holds_of_growAll`: what adding branches does to every node;
* `branch?_of_holds`: a branch is read back from where it stands;
* `isBelow_iff_of_holds`: what lies below its root is the rest of its interval;
* `exists_holds_of_holds`: at each number of its interval stands a branch;
* `Holds.lt_childState`: children that precede the child states are numbered before them, with all
  below.
-/

namespace Statechart

/-- A node before it is added, with what is to stand below it. -/
inductive Branch
  | node (root : Declaration) (children : List Branch)
  deriving Repr

namespace Branch

/-- The node itself. -/
def root : Branch → Declaration
  | node d _ => d

/-- The branches below it. -/
def children : Branch → List Branch
  | node _ bs => bs

/-- The kind of the node. -/
def kind (b : Branch) : Kind := b.root.kind

mutual

/-- How many nodes a branch has. -/
def size : Branch → Nat
  | node _ children => sizeAll children + 1

/-- How many nodes some branches have. -/
def sizeAll : List Branch → Nat
  | [] => 0
  | b :: bs => size b + sizeAll bs

end

@[simp] theorem kind_node (d : Declaration) (bs : List Branch) : (node d bs).kind = d.kind := rfl

@[simp] theorem children_node (d : Declaration) (bs : List Branch) :
    (node d bs).children = bs := rfl

theorem size_pos (b : Branch) : 0 < b.size := by
  cases b
  simp [size]

/-- The numbers of the roots of branches that stand one after the other, from `i` on. -/
def numbers (i : Nat) : List Branch → List Nat
  | [] => []
  | b :: bs => i :: numbers (i + b.size) bs

/-- The branches below every node of the branch satisfy `p`. -/
inductive Everywhere (p : List Branch → Prop) : Branch → Prop
  | node {d : Declaration} {children : List Branch} (here : p children)
      (inside : ∀ b ∈ children, Everywhere p b) : Everywhere p (node d children)

theorem numbers_append (i : Nat) (as bs : List Branch) :
    numbers i (as ++ bs) = numbers i as ++ numbers (i + sizeAll as) bs := by
  induction as generalizing i with
  | nil => simp [numbers, sizeAll]
  | cons a as ih => simp [numbers, sizeAll, ih, Nat.add_assoc]

end Branch

namespace Model

open Branch (numbers sizeAll)

/-! ### Adding branches -/

mutual

/-- Adds a branch under a parent. -/
def grow (m : Model) (parent : Nat) : Branch → Except Error Model
  | .node d children =>
    match m.add d parent with
    | .error e => .error e
    | .ok (m, i) => growAll m i children

/-- Adds branches under a parent, one after the other. -/
def growAll (m : Model) (parent : Nat) : List Branch → Except Error Model
  | [] => .ok m
  | b :: bs =>
    match grow m parent b with
    | .error e => .error e
    | .ok m => growAll m parent bs

end

mutual

/-- A branch stands under a parent from number `i` on. -/
def Holds (m : Model) (parent : Option Nat) (i : Nat) : Branch → Prop
  | .node d children =>
    m.node? i = some ⟨d.id, d.kind, parent, numbers (i + 1) children⟩ ∧
      m.HoldsAll i (i + 1) children

/-- Branches stand under a parent one after the other, from number `i` on. -/
def HoldsAll (m : Model) (parent i : Nat) : List Branch → Prop
  | [] => True
  | b :: bs => m.Holds (some parent) i b ∧ m.HoldsAll parent (i + b.size) bs

end

/-- What adding branches under a parent does: the branches stand behind the nodes that were there,
and of these only the parent has changed. -/
structure Grown (m m' : Model) (parent : Nat) (bs : List Branch) : Prop where
  size : m'.size = m.size + sizeAll bs
  old : ∀ j < m.size, m'.node? j = (m.node? j).map fun n =>
    if parent = j then { n with children := n.children ++ numbers m.size bs } else n
  new : m'.HoldsAll parent m.size bs

variable {m m' : Model} {i j p : Nat} {parent : Option Nat} {d : Declaration}

mutual

theorem holds_congr : ∀ {b : Branch} {i : Nat} {parent : Option Nat},
    (∀ j, i ≤ j → j < i + b.size → m'.node? j = m.node? j) →
      m.Holds parent i b → m'.Holds parent i b
  | .node d children, i, parent, h, hb => by
    rw [Branch.size] at h
    rw [Holds] at hb ⊢
    refine ⟨?_, holdsAll_congr (fun j hij hj => h j (by omega) (by omega)) hb.2⟩
    rw [h i (Nat.le_refl i) (by omega)]
    exact hb.1

theorem holdsAll_congr : ∀ {bs : List Branch} {i p : Nat},
    (∀ j, i ≤ j → j < i + sizeAll bs → m'.node? j = m.node? j) →
      m.HoldsAll p i bs → m'.HoldsAll p i bs
  | [], _, _, _, _ => trivial
  | b :: bs, i, p, h, hbs => by
    rw [sizeAll] at h
    rw [HoldsAll] at hbs ⊢
    exact ⟨holds_congr (fun j hij hj => h j hij (by omega)) hbs.1,
      holdsAll_congr (fun j hij hj => h j (by omega) (by omega)) hbs.2⟩

end

theorem addNode_of_add {k : Nat} (h : m.add d p = .ok (m', k)) :
    m.addNode d (some p) = .ok m' ∧ k = m.size := by
  unfold add at h
  split at h
  · cases h
  · next hadd =>
    cases h
    exact ⟨hadd, rfl⟩

theorem add_cases {k : Nat} (h : m.add d p = .ok (m', k)) :
    p < m.size ∧ m' = m.insertNode d (some p) ∧ k = m.size := by
  obtain ⟨hadd, rfl⟩ := addNode_of_add h
  obtain ⟨hplace, -, rfl⟩ := addNode_cases hadd
  exact ⟨hplace.lt_size, rfl, rfl⟩

mutual

theorem Built.grow : ∀ {b : Branch} {m m' : Model} {p : Nat}, m.Built → m.grow p b = .ok m' →
    m'.Built
  | .node d children, m, m', p, hm, h => by
    unfold Model.grow at h
    split at h
    · cases h
    · next m₁ k hadd => exact Built.growAll (hm.add (addNode_of_add hadd).1) h

theorem Built.growAll : ∀ {bs : List Branch} {m m' : Model} {p : Nat}, m.Built →
    m.growAll p bs = .ok m' → m'.Built
  | [], m, m', p, hm, h => by
    cases h
    exact hm
  | b :: bs, m, m', p, hm, h => by
    unfold Model.growAll at h
    split at h
    · cases h
    · next m₁ hb => exact Built.growAll (Built.grow hm hb) h

end

/-- Adding one node and then branches below it. -/
theorem Grown.node {children : List Branch}
    (h : Grown (m.insertNode d (some p)) m' m.size children) : Grown m m' p [.node d children] := by
  have hsize : (m.insertNode d (some p)).size = m.size + 1 := size_insertNode
  constructor
  case size =>
    rw [h.size, hsize]
    simp only [sizeAll, Branch.size]
    omega
  case old =>
    intro j hj
    rw [h.old j (by omega), node?_insertNode, if_neg (by omega)]
    have hne : m.size ≠ j := by omega
    cases m.node? j <;> simp [hne, numbers]
  case new =>
    refine ⟨⟨?_, ?_⟩, trivial⟩
    · rw [h.old m.size (by omega), node?_insertNode, if_pos rfl, hsize]
      simp
    · rw [← hsize]
      exact h.new

/-- Adding some branches and then more. -/
theorem Grown.append {m₁ : Model} {b : Branch} {bs : List Branch} (h : Grown m m₁ p [b])
    (h' : Grown m₁ m' p bs) (hp : p < m.size) : Grown m m' p (b :: bs) := by
  have hsize : m₁.size = m.size + b.size := by simpa [sizeAll] using h.size
  constructor
  case size =>
    rw [h'.size, hsize, sizeAll, Nat.add_assoc]
  case old =>
    intro j hj
    rw [h'.old j (by omega), h.old j hj, Option.map_map]
    congr 1
    funext n
    by_cases hpj : p = j <;> simp [hpj, numbers, hsize]
  case new =>
    -- The parent is an old node, so the first branch stays as it is.
    refine ⟨holds_congr (fun j hij hj => ?_) h.new.1, hsize ▸ h'.new⟩
    have hne : p ≠ j := by omega
    rw [h'.old j (by omega)]
    simp [hne]

mutual

theorem grown_grow : ∀ {b : Branch} {m m' : Model} {p : Nat}, m.grow p b = .ok m' →
    p < m.size ∧ Grown m m' p [b]
  | .node d children, m, m', p, h => by
    unfold grow at h
    split at h
    · cases h
    · next m₁ k hadd =>
      obtain ⟨hp, rfl, rfl⟩ := add_cases hadd
      exact ⟨hp, (grown_growAll (by simp) h).node⟩

theorem grown_growAll : ∀ {bs : List Branch} {m m' : Model} {p : Nat}, p < m.size →
    m.growAll p bs = .ok m' → Grown m m' p bs
  | [], m, m', p, _, h => by
    cases h
    exact ⟨rfl, fun j _ => by simp [numbers], trivial⟩
  | b :: bs, m, m', p, hp, h => by
    unfold growAll at h
    split at h
    · cases h
    · next m₁ hb =>
      have hb := (grown_grow hb).2
      exact hb.append (grown_growAll (by rw [hb.size]; omega) h) hp

end

/-- Adding a root and then branches below it. -/
theorem holds_of_growAll {m₀ : Model} {bs : List Branch}
    (hroot : Model.empty.addNode d none = .ok m₀) (h : m₀.growAll 0 bs = .ok m) :
    m.Built ∧ m.Holds none 0 (.node d bs) ∧ m.size = (Branch.node d bs).size := by
  refine ⟨(Built.empty.add hroot).growAll h, ?_⟩
  obtain ⟨-, -, rfl⟩ := addNode_cases hroot
  have hsize : (Model.empty.insertNode d none).size = 1 := size_insertNode
  have hg := grown_growAll (by omega) h
  refine ⟨⟨?_, ?_⟩, ?_⟩
  · rw [hg.old 0 (by omega), node?_insertNode, hsize]
    simp [size, empty]
  · simpa [hsize] using hg.new
  · rw [hg.size, hsize, Branch.size, Nat.add_comm]

/-! ### Branches that stand in a model -/

/-- The branch that stands from a number on. -/
def branch? (m : Model) (i : Nat) : Option Branch :=
  match m.node? i with
  | none => none
  | some n => some (.node ⟨n.id, n.kind⟩ (n.children.filterMap fun c =>
      if _h : i < c ∧ c < m.size then m.branch? c else none))
termination_by m.size - i
decreasing_by omega

variable {b : Branch}

theorem Holds.node? (h : m.Holds parent i b) :
    m.node? i = some ⟨b.root.id, b.kind, parent, numbers (i + 1) b.children⟩ := by
  cases b
  exact h.1

theorem Holds.lt_size (h : m.Holds parent i b) : i < m.size := lt_size_of_node? h.node?

theorem Holds.hasKind (h : m.Holds parent i b) (q : Kind → Bool) : m.hasKind q i = q b.kind := by
  simp [Model.hasKind, kind?, h.node?]

theorem Holds.children_eq (h : m.Holds parent i b) : m.children i = numbers (i + 1) b.children := by
  rw [Model.children, h.node?]

mutual

theorem branch?_of_holds : ∀ {b : Branch} {i : Nat} {parent : Option Nat}, m.Holds parent i b →
    m.branch? i = some b
  | .node d children, i, parent, h => by
    rw [branch?, h.1]
    simp only [filterMap_branch?_of_holdsAll (Nat.lt_succ_self i) h.2]

theorem filterMap_branch?_of_holdsAll : ∀ {bs : List Branch} {i p : Nat}, p < i →
    m.HoldsAll p i bs →
      ((numbers i bs).filterMap fun c =>
        if _h : p < c ∧ c < m.size then m.branch? c else none) = bs
  | [], _, _, _, _ => rfl
  | b :: bs, i, p, hp, h => by
    rw [numbers, List.filterMap_cons, dif_pos ⟨hp, h.1.lt_size⟩, branch?_of_holds h.1]
    simp only [filterMap_branch?_of_holdsAll (by omega) h.2]

end

mutual

/-- What lies below the root of a branch is the rest of its interval. -/
theorem isBelow_iff_of_holds (hm : m.WellFormed) : ∀ {b : Branch} {i : Nat} {parent : Option Nat},
    m.Holds parent i b → ∀ j, m.isBelow j i ↔ i < j ∧ j < i + b.size
  | .node d children, i, parent, h, j => by
    have hchild : m.isBelow j i ↔ ∃ c ∈ numbers (i + 1) children, m.Within j c := by
      constructor
      · intro hj
        obtain ⟨c, hc, hjc⟩ := hm.exists_child_within hj
        rw [← hm.mem_children, h.children_eq] at hc
        exact ⟨c, hc, hjc⟩
      · rintro ⟨c, hc, hjc⟩
        have hp : m.parent? c = some i := by
          rw [← hm.mem_children, h.children_eq]
          exact hc
        exact hm.isBelow_of_child hp hjc
    rw [hchild, exists_within_iff_of_holdsAll hm h.2, Branch.size]
    omega

/-- What the subtrees of branches that stand one after the other hold is their interval. -/
theorem exists_within_iff_of_holdsAll (hm : m.WellFormed) : ∀ {bs : List Branch} {i p : Nat},
    m.HoldsAll p i bs → ∀ j, (∃ c ∈ numbers i bs, m.Within j c) ↔ i ≤ j ∧ j < i + sizeAll bs
  | [], i, _, _, j => by simp [numbers, sizeAll]
  | b :: bs, i, p, h, j => by
    have hsize : 0 < b.size := b.size_pos
    have hfirst : m.Within j i ↔ i ≤ j ∧ j < i + b.size := by
      rw [Within, isBelow_iff_of_holds hm h.1]
      omega
    simp only [numbers, List.mem_cons, exists_eq_or_imp, hfirst,
      exists_within_iff_of_holdsAll hm h.2, sizeAll]
    omega

end

mutual

/-- At each number of its interval stands a branch. -/
theorem exists_holds_of_holds {q : List Branch → Prop} : ∀ {b : Branch} {i j : Nat}
    {parent : Option Nat}, m.Holds parent i b → b.Everywhere q → i ≤ j → j < i + b.size →
      ∃ parent d children, m.Holds parent j (.node d children) ∧ q children
  | .node d children, i, j, parent, h, .node here inside, hij, hj => by
    rw [Branch.size] at hj
    by_cases heq : i = j
    · subst heq
      exact ⟨parent, d, children, h, here⟩
    · exact exists_holds_of_holdsAll h.2 inside (by omega) (by omega)

theorem exists_holds_of_holdsAll {q : List Branch → Prop} : ∀ {bs : List Branch} {i j p : Nat},
    m.HoldsAll p i bs → (∀ b ∈ bs, b.Everywhere q) → i ≤ j → j < i + sizeAll bs →
      ∃ parent d children, m.Holds parent j (.node d children) ∧ q children
  | [], i, j, _, _, _, hij, hj => by
    rw [sizeAll] at hj
    omega
  | b :: bs, i, j, p, h, hq, hij, hj => by
    rw [sizeAll] at hj
    by_cases hfirst : j < i + b.size
    · exact exists_holds_of_holds h.1 (hq b (List.mem_cons_self ..)) hij hfirst
    · exact exists_holds_of_holdsAll h.2 (fun c hc => hq c (List.mem_cons_of_mem _ hc)) (by omega)
        (by omega)

end

/-! ### What stands before child states -/

theorem holdsAll_append {as bs : List Branch} {i p : Nat} :
    m.HoldsAll p i (as ++ bs) ↔ m.HoldsAll p i as ∧ m.HoldsAll p (i + sizeAll as) bs := by
  induction as generalizing i with
  | nil => simp [HoldsAll, sizeAll]
  | cons a as ih => simp [HoldsAll, sizeAll, ih, Nat.add_assoc, and_assoc]

theorem HoldsAll.exists_of_mem {bs : List Branch} {i p c : Nat} (h : m.HoldsAll p i bs)
    (hc : c ∈ numbers i bs) : ∃ b ∈ bs, m.Holds (some p) c b := by
  induction bs generalizing i with
  | nil => cases hc
  | cons b bs ih =>
    rcases List.mem_cons.1 hc with rfl | hc
    · exact ⟨b, List.mem_cons_self .., h.1⟩
    · obtain ⟨b', hb', hholds⟩ := ih h.2 hc
      exact ⟨b', List.mem_cons_of_mem _ hb', hholds⟩

theorem HoldsAll.exists_number {bs : List Branch} {i p : Nat} (h : m.HoldsAll p i bs) (hb : b ∈ bs) :
    ∃ c ∈ numbers i bs, m.Holds (some p) c b := by
  induction bs generalizing i with
  | nil => cases hb
  | cons a bs ih =>
    rcases List.mem_cons.1 hb with rfl | hb
    · exact ⟨i, List.mem_cons_self .., h.1⟩
    · obtain ⟨c, hc, hholds⟩ := ih h.2 hb
      exact ⟨c, List.mem_cons_of_mem i hc, hholds⟩

/-- If other children precede the child states, all below them has smaller numbers than the child
states. -/
theorem Holds.lt_childState (hm : m.WellFormed) {own states : List Branch}
    (h : m.Holds parent i (.node d (own ++ states))) (hown : ∀ b ∈ own, ¬ b.kind.isState)
    (hstates : ∀ b ∈ states, b.kind.isState) {c e : Nat} (he : e ∈ m.children i)
    (hes : ¬ m.isState e) (hc : c ∈ m.childStates i) (hj : m.Within j e) : j < c := by
  obtain ⟨hfirst, hsecond⟩ := holdsAll_append.1 h.2
  have hchildren : m.children i =
      numbers (i + 1) own ++ numbers (i + 1 + sizeAll own) states := by
    rw [h.children_eq]
    exact Branch.numbers_append ..
  rw [childStates, childrenOfKind, List.mem_filter] at hc
  rw [hchildren, List.mem_append] at he hc
  have hbefore : j < i + 1 + sizeAll own := by
    rcases he with he | he
    · exact ((exists_within_iff_of_holdsAll hm hfirst j).1 ⟨e, he, hj⟩).2
    · obtain ⟨b, hb, hholds⟩ := hsecond.exists_of_mem he
      exact absurd ((hholds.hasKind _).trans (hstates b hb)) hes
  have hbehind : i + 1 + sizeAll own ≤ c := by
    rcases hc.1 with hmem | hmem
    · obtain ⟨b, hb, hholds⟩ := hfirst.exists_of_mem hmem
      exact absurd ((hholds.hasKind _).symm.trans hc.2) (hown b hb)
    · exact ((exists_within_iff_of_holdsAll hm hsecond c).1 ⟨c, hmem, .refl c⟩).1
  omega

end Model

end Statechart
