import Statechart.Proofs.Expr.Assignment

/-!
# What an assignment leaves as it is

Two paths diverge if neither is the beginning of the other.  An assignment at one of them leaves what
is read at the other as it is, unless an array lies where both still go the same way: an assignment
goes through objects only, and puts an object in the place of the array.

* `Diverge`, `Json.Crossed`: paths that part, and an array on what they have in common;
* `Json.fields`: the fields through which an assignment goes on, with `Fields.put_cons` and
  `writePath_cons`;
* `Json.foldl_step_put`: what is read at one path inside of a value when another has been written;
* `assign_diverging`: the same of the variables of a context.
-/

namespace Statechart

/-- Neither path is the beginning of the other. -/
def Diverge (p q : List String) : Prop := ¬ p <+: q ∧ ¬ q <+: p

namespace Diverge

variable {p q : List String} {k : String}

theorem ne_nil_left (h : Diverge p q) : p ≠ [] := fun hp => h.1 (hp ▸ List.nil_prefix)

theorem ne_nil_right (h : Diverge p q) : q ≠ [] := fun hq => h.2 (hq ▸ List.nil_prefix)

theorem tail (h : Diverge (k :: p) (k :: q)) : Diverge p q :=
  ⟨fun hpq => h.1 (List.cons_prefix_cons.2 ⟨rfl, hpq⟩),
    fun hqp => h.2 (List.cons_prefix_cons.2 ⟨rfl, hqp⟩)⟩

end Diverge

namespace Json

/-- The fields of an object; other values have none. -/
def fields : Json → Fields
  | object fields => fields
  | _ => []

/-- Somewhere on what two paths have in common lies an array. -/
def Crossed (v : Json) (p q : List String) : Prop :=
  ∃ d items, d <+: p ∧ d <+: q ∧ d.foldl step v = .array items

variable {v : Json} {p q : List String} {k j : String}

theorem step_object (fields : Fields) (k : String) :
    step (.object fields) k = (Fields.get? fields k).getD .null := rfl

/-- Nothing lies inside of null. -/
theorem foldl_step_null (path : List String) : path.foldl step .null = .null := by
  induction path with
  | nil => rfl
  | cons k rest ih => exact ih

/-- Except in an array, a segment names a field. -/
theorem step_eq_of_ne_array (h : ∀ items, v ≠ .array items) (k : String) :
    step v k = step (.object v.fields) k := by
  cases v with
  | array items => exact absurd rfl (h items)
  | _ => rfl

/-- In an array no segment names a field. -/
theorem step_fields_array (items : List Json) (k : String) :
    step (.object (array items).fields) k = .null := rfl

namespace Crossed

theorem array (items : List Json) (p q : List String) : Crossed (.array items) p q :=
  ⟨[], items, List.nil_prefix, List.nil_prefix, rfl⟩

theorem eq_array_of_ne (h : Crossed v (k :: p) (j :: q)) (hkj : k ≠ j) :
    ∃ items, v = .array items := by
  obtain ⟨d, items, hp, hq, hd⟩ := h
  cases d with
  | nil => exact ⟨items, hd⟩
  | cons i d =>
    have hik := (List.cons_prefix_cons.1 hp).1
    have hij := (List.cons_prefix_cons.1 hq).1
    exact absurd (hik.symm.trans hij) hkj

theorem cons_iff (h : ∀ items, v ≠ .array items) :
    Crossed v (k :: p) (k :: q) ↔ Crossed (step v k) p q := by
  constructor
  · rintro ⟨d, items, hp, hq, hd⟩
    cases d with
    | nil => exact absurd hd (h items)
    | cons i d =>
      obtain ⟨rfl, hdp⟩ := List.cons_prefix_cons.1 hp
      exact ⟨d, items, hdp, (List.cons_prefix_cons.1 hq).2, hd⟩
  · rintro ⟨d, items, hp, hq, hd⟩
    exact ⟨k :: d, items, List.cons_prefix_cons.2 ⟨rfl, hp⟩, List.cons_prefix_cons.2 ⟨rfl, hq⟩, hd⟩

end Crossed

end Json

namespace Fields

variable {p : List String} {k j : String}

/-- A value at a longer path is put inside of what the first segment names. -/
theorem put_cons (hp : p ≠ []) (fields : Fields) (k : String) (w : Json) :
    put fields (k :: p) w =
      set fields k (.object (put (Json.step (.object fields) k).fields p w)) := by
  rw [put, Json.step_object]
  · cases get? fields k with
    | none => rfl
    | some v => cases v <;> rfl
  · exact hp

theorem step_put_of_ne (hkj : k ≠ j) (fields : Fields) (p : List String) (w : Json) :
    Json.step (.object (put fields (k :: p) w)) j = Json.step (.object fields) j := by
  have hset : ∀ x, get? (set fields k x) j = get? fields j := fun x => by
    rw [get?_set, if_neg (Ne.symm hkj)]
  by_cases hp : p = []
  · subst hp
    rw [put, Json.step_object, Json.step_object, hset]
  · rw [put_cons hp, Json.step_object, hset]
    rfl

end Fields

namespace Json

variable {p q : List String}

/-- When something has been put at a path, what is read at a diverging one is null if an array has
been crossed, and as before otherwise. -/
theorem foldl_step_put (h : Diverge p q) (v w : Json) :
    (Crossed v p q → q.foldl step (.object (Fields.put v.fields p w)) = .null) ∧
      (¬ Crossed v p q → q.foldl step (.object (Fields.put v.fields p w)) = q.foldl step v) := by
  induction p generalizing q v with
  | nil => exact absurd rfl h.ne_nil_left
  | cons k p ih =>
    obtain ⟨j, q, rfl⟩ := List.exists_cons_of_ne_nil h.ne_nil_right
    rw [List.foldl_cons, List.foldl_cons]
    by_cases hkj : k = j
    · subst hkj
      have htail := h.tail
      have hnext : step (.object (Fields.put v.fields (k :: p) w)) k =
          .object (Fields.put (step (.object v.fields) k).fields p w) := by
        rw [Fields.put_cons htail.ne_nil_left, step_object, Fields.get?_set_self]
        rfl
      rw [hnext]
      by_cases harray : ∃ items, v = .array items
      · -- The array has gone, and with it everything that has been inside.
        obtain ⟨items, rfl⟩ := harray
        refine ⟨fun _ => ?_, fun hnot => absurd (.array items _ _) hnot⟩
        rw [step_fields_array]
        by_cases hcrossed : Crossed .null p q
        · exact (ih htail .null).1 hcrossed
        · rw [(ih htail .null).2 hcrossed, foldl_step_null]
      · rw [not_exists] at harray
        rw [← step_eq_of_ne_array harray, Crossed.cons_iff harray]
        exact ih htail (step v k)
    · rw [Fields.step_put_of_ne hkj]
      constructor
      · intro hcrossed
        obtain ⟨items, rfl⟩ := hcrossed.eq_array_of_ne hkj
        rw [step_fields_array, foldl_step_null]
      · intro hnot
        rw [← step_eq_of_ne_array]
        rintro items rfl
        exact hnot (.array items _ _)

end Json

/-! ### Variables -/

variable {κ : Type} [Context κ] {c t : κ} {p q : List String} {location : String} {v : Json}

/-- Somewhere on what two paths have in common a context holds an array. -/
def ArrayOnWay (c : κ) (p q : List String) : Prop :=
  ∃ d items, d ≠ [] ∧ d <+: p ∧ d <+: q ∧ readPath c d = .array items

theorem arrayOnWay_cons_iff {k : String} : ArrayOnWay c (k :: p) (k :: q) ↔
    Json.Crossed ((Context.get? c k).getD .null) p q := by
  constructor
  · rintro ⟨d, items, hd, hp, hq, hread⟩
    obtain ⟨i, d, rfl⟩ := List.exists_cons_of_ne_nil hd
    obtain ⟨rfl, hdp⟩ := List.cons_prefix_cons.1 hp
    exact ⟨d, items, hdp, (List.cons_prefix_cons.1 hq).2, hread⟩
  · rintro ⟨d, items, hp, hq, hread⟩
    exact ⟨k :: d, items, List.cons_ne_nil k d, List.cons_prefix_cons.2 ⟨rfl, hp⟩,
      List.cons_prefix_cons.2 ⟨rfl, hq⟩, hread⟩

theorem not_arrayOnWay_of_ne {k j : String} (hkj : k ≠ j) : ¬ ArrayOnWay c (k :: p) (j :: q) := by
  rintro ⟨d, items, hd, hp, hq, -⟩
  obtain ⟨i, d, rfl⟩ := List.exists_cons_of_ne_nil hd
  have hik := (List.cons_prefix_cons.1 hp).1
  have hij := (List.cons_prefix_cons.1 hq).1
  exact hkj (hik.symm.trans hij)

/-- A value at a longer path is put inside of the variable. -/
theorem writePath_cons (hp : p ≠ []) (c : κ) (k : String) (v : Json) : writePath c (k :: p) v =
    Context.set c k (.object (Fields.put ((Context.get? c k).getD .null).fields p v)) := by
  rw [writePath]
  · cases Context.get? c k with
    | none => rfl
    | some x => cases x <;> rfl
  · exact hp

theorem get?_writePath_of_ne [LawfulContext κ] {k j : String} (hkj : k ≠ j) (c : κ)
    (p : List String) (v : Json) :
    Context.get? (writePath c (k :: p) v) j = Context.get? c j := by
  by_cases hp : p = []
  · subst hp
    rw [writePath, LawfulContext.get?_set, if_neg (Ne.symm hkj)]
  · rw [writePath_cons hp, LawfulContext.get?_set, if_neg (Ne.symm hkj)]

/-- What is written at a path is not seen at a diverging one, unless an array has been on the way. -/
theorem readPath_writePath_diverging [LawfulContext κ] (h : Diverge p q) (c : κ) (v : Json) :
    (ArrayOnWay c p q → readPath (writePath c p v) q = .null) ∧
      (¬ ArrayOnWay c p q → readPath (writePath c p v) q = readPath c q) := by
  obtain ⟨k, p, rfl⟩ := List.exists_cons_of_ne_nil h.ne_nil_left
  obtain ⟨j, q, rfl⟩ := List.exists_cons_of_ne_nil h.ne_nil_right
  by_cases hkj : k = j
  · subst hkj
    have htail := h.tail
    rw [arrayOnWay_cons_iff, writePath_cons htail.ne_nil_left, readPath, readPath,
      LawfulContext.get?_set_self]
    exact Json.foldl_step_put htail _ v
  · refine ⟨fun hway => absurd hway (not_arrayOnWay_of_ne hkj), fun _ => ?_⟩
    rw [readPath, readPath, get?_writePath_of_ne hkj]

theorem eq_writePath_of_assign (h : assign c location v = .ok t) (hp : Names location p) :
    t = writePath c p v := by
  rw [names_iff.1 hp]
  by_cases hmem : "" ∈ Text.dotted (bareLocation location)
  · rw [assign_of_mem hmem] at h
    cases h
  · rw [assign_of_not_mem hmem] at h
    cases h
    rfl

/-- An assignment at a path leaves what is read at a diverging path as it is, if no array lies on
what the two have in common.  If one does, an object has taken its place, and at the other path null
is read. -/
theorem assign_diverging [LawfulContext κ] (hp : Names location p)
    (h : assign c location v = .ok t) (hpq : ¬ p <+: q) (hqp : ¬ q <+: p) :
    ((¬ ∃ d items, d ≠ [] ∧ d <+: p ∧ d <+: q ∧ readPath c d = .array items) →
      readPath t q = readPath c q) ∧
    ((∃ d items, d ≠ [] ∧ d <+: p ∧ d <+: q ∧ readPath c d = .array items) →
      readPath t q = .null) := by
  rw [eq_writePath_of_assign h hp]
  exact (readPath_writePath_diverging ⟨hpq, hqp⟩ c v).symm

/-- An order with items. -/
def stockedScope : Scope :=
  ⟨[("order", .object [("items", .array [.ofNat 5, .ofNat 7]), ("total", .ofNat 12)])], []⟩

/-- A new total leaves the items of the order, but a field of the items does not. -/
theorem assign_diverging_stocked :
    Names "ctx.order.total" ["order", "total"] ∧ Names "order.items.0" ["order", "items", "0"] ∧
      (∃ t, assign stockedScope "ctx.order.total" (.ofNat 9) = .ok t ∧
        readPath t ["order", "items", "1"] = .ofNat 7) ∧
      ∃ t, assign stockedScope "order.items.0" (.ofNat 9) = .ok t ∧
        readPath t ["order", "items", "1"] = .null := by
  have htotal : Names "ctx.order.total" ["order", "total"] :=
    ⟨by decide, by decide, .inl (by decide)⟩
  have hitem : Names "order.items.0" ["order", "items", "0"] := by
    rw [names_iff]
    decide
  refine ⟨htotal, hitem, ⟨_, rfl, ?_⟩, ⟨_, rfl, ?_⟩⟩
  · refine (assign_diverging htotal (c := stockedScope) rfl (by decide) (by decide)).1 ?_
    rintro ⟨d, items, hd, hp, hq, hread⟩
    -- The paths have the order in common, which is an object.
    have hd : d = ["order"] := by grind [List.prefix_cons_iff]
    subst hd
    cases hread
  · exact (assign_diverging hitem (c := stockedScope) rfl (by decide) (by decide)).2
      ⟨["order", "items"], _, by decide, by decide, by decide, rfl⟩

/-- When the first item of an array is assigned, the second one is lost. -/
theorem assign_diverging_array : ¬ ∀ (s t : Scope) (location : String) (p q : List String)
    (v : Json), Names location p → assign s location v = .ok t → q ≠ [] → ¬ p <+: q → ¬ q <+: p →
      readPath t q = readPath s q := fun h => by
  have hnames : Names "a.0" ["a", "0"] := by
    rw [names_iff]
    decide
  have hread := h ⟨[("a", .array [.ofNat 1, .ofNat 2])], []⟩
    ⟨[("a", .object [("0", .ofNat 5)])], []⟩ "a.0" ["a", "0"] ["a", "1"] (.ofNat 5) hnames rfl
    (by decide) (by decide) (by decide)
  have hbefore : readPath (⟨[("a", .array [.ofNat 1, .ofNat 2])], []⟩ : Scope) ["a", "1"] =
      .ofNat 2 := rfl
  rw [hbefore] at hread
  cases hread

end Statechart
