import Statechart.Proofs.Evaluation.Unread
import Statechart.Proofs.Text.Words

/-!
# Assignments

A location names a path, and an assignment at the location writes what is read at the path.

* `Fields.put` and `Json.step` are inverse to each other (`Fields.step_put`), and of two values that
  are put at one path the second one counts (`Fields.put_put`);
* `readPath_writePath` and `writePath_writePath` say the same of the variables of a scope, of which
  only the innermost frame is written (`enclosing_writePath`);
* `Names`: the path that a location names, told without cutting the location;
* `Refused` and `Assigned`: how an assignment can end;
* `assign_reads_back`: all this for every scope, location and value.
-/

namespace Statechart

/-! ### Fields -/

namespace Fields

theorem set_set (fields : Fields) (name : String) (u v : Json) :
    set (set fields name u) name v = set fields name v := by
  induction fields with
  | nil => simp [set]
  | cons p rest ih =>
    obtain ⟨k, x⟩ := p
    by_cases hk : k = name
    · simp [set, hk]
    · by_cases hlt : name < k
      · simp [set, hk, hlt]
      · simp [set, hk, hlt, ih]

theorem get?_set_self (fields : Fields) (name : String) (v : Json) :
    get? (set fields name v) name = some v := by
  rw [get?_set, if_pos rfl]

/-- What is put at a path is read there. -/
theorem step_put {path : List String} (hpath : path ≠ []) (fields : Fields) (v : Json) :
    path.foldl Json.step (.object (put fields path v)) = v := by
  fun_induction put fields path v with
  | case1 => exact absurd rfl hpath
  | case2 fields k v => simp [Json.step, get?_set_self]
  | case3 fields k rest v hrest inner ih =>
    rw [List.foldl_cons, Json.step, get?_set_self]
    exact ih hrest

/-- Of two values that are put at one path the second one counts. -/
theorem put_put (fields : Fields) (path : List String) (u v : Json) :
    put (put fields path u) path v = put fields path v := by
  fun_induction put fields path u with
  | case1 => rfl
  | case2 fields k u => exact set_set fields k u v
  | case3 fields k rest u hrest inner ih =>
    rw [put, put, get?_set_self, set_set]
    · exact congrArg (fun x => set fields k (.object x)) ih
    all_goals exact hrest

end Fields

/-! ### Paths -/

variable {s : Scope} {path : List String} {location : String} {v : Json}

theorem LawfulContext.get?_set_self {κ : Type} [Context κ] [LawfulContext κ] (c : κ) (name : String)
    (v : Json) : Context.get? (Context.set c name v) name = some v := by
  rw [LawfulContext.get?_set, if_pos rfl]

/-- What is written at a path is read there, whatever has been there before. -/
theorem readPath_writePath {κ : Type} [Context κ] [LawfulContext κ] (hpath : path ≠ []) (c : κ)
    (v : Json) : readPath (writePath c path v) path = v := by
  match path with
  | [name] =>
    rw [writePath, readPath, LawfulContext.get?_set_self]
    rfl
  | name :: k :: rest =>
    rw [writePath, readPath, LawfulContext.get?_set_self]
    · exact Fields.step_put (List.cons_ne_nil k rest) _ v
    · exact List.cons_ne_nil k rest

theorem Scope.set_set (s : Scope) (name : String) (u v : Json) :
    Context.set (Context.set s name u) name v = Context.set s name v :=
  congrArg (fun own => Scope.mk own s.enclosing) (Fields.set_set s.own name u v)

/-- Of two values that are written at one path the second one counts. -/
theorem writePath_writePath (s : Scope) (path : List String) (u v : Json) :
    writePath (writePath s path u) path v = writePath s path v := by
  match path with
  | [] => rfl
  | [name] => exact Scope.set_set s name u v
  | name :: k :: rest =>
    have hrest : k :: rest ≠ [] := List.cons_ne_nil k rest
    rw [writePath, writePath, LawfulContext.get?_set_self, Scope.set_set]
    · exact congrArg (fun x => Context.set s name (.object x)) (Fields.put_put _ _ u v)
    all_goals exact hrest

/-- Writing at a path sets one variable, or none. -/
theorem writePath_cases {κ : Type} [Context κ] (c : κ) (path : List String) (v : Json) :
    writePath c path v = c ∨ ∃ name x, writePath c path v = Context.set c name x := by
  match path with
  | [] => exact .inl rfl
  | [name] => exact .inr ⟨name, v, rfl⟩
  | name :: k :: rest => exact .inr ⟨name, _, rfl⟩

/-- Only the innermost frame is written. -/
theorem enclosing_writePath (s : Scope) (path : List String) (v : Json) :
    (writePath s path v).enclosing = s.enclosing := by
  obtain h | ⟨name, x, h⟩ := writePath_cases s path v
  · rw [h]
  · rw [h]
    rfl

/-! ### Locations -/

/-- A location names a path: dots join the segments, which have none, to the location, or to what
stands behind the mark `ctx.` if it starts with this mark. -/
def Names (location : String) (path : List String) : Prop :=
  path ≠ [] ∧ (∀ segment ∈ path, '.' ∉ segment.toList) ∧
    (location = "ctx." ++ ".".intercalate path ∨
      (∀ rest, location ≠ "ctx." ++ rest) ∧ location = ".".intercalate path)

theorem bareLocation_append (rest : String) : bareLocation ("ctx." ++ rest) = rest := by
  have hlist : ("ctx." ++ rest).toList = 'c' :: 't' :: 'x' :: '.' :: rest.toList := by simp
  rw [bareLocation, hlist]
  exact String.ofList_toList

theorem bareLocation_of_ne (h : ∀ rest, location ≠ "ctx." ++ rest) :
    bareLocation location = location := by
  unfold bareLocation
  split
  · next rest hlist =>
    refine absurd ?_ (h (String.ofList rest))
    rw [← String.toList_inj, hlist]
    simp
  · rfl

/-- A location names the pieces between the dots of what stands behind its mark. -/
theorem names_iff : Names location path ↔ path = Text.dotted (bareLocation location) := by
  rw [eq_comm, Text.dotted_eq_iff, Names]
  refine and_congr_right fun _ => and_congr_right fun _ => ?_
  by_cases hmark : ∃ rest, location = "ctx." ++ rest
  · obtain ⟨rest, rfl⟩ := hmark
    rw [bareLocation_append]
    simp
  · rw [not_exists] at hmark
    rw [bareLocation_of_ne hmark]
    simp [hmark]

/-! ### Assignments -/

/-- An assignment is refused: it gives an error, and the action that would make it fails and leaves
the context as it is. -/
def Refused (s : Scope) (location : String) (v : Json) (err : Error) : Prop :=
  assign s location v = .error err ∧
    ∀ (σ : Type) (ev : Evaluator Scope σ) (store : Store Scope σ) (text : String),
      store.context = s → (store.evaluate ev text).1 = .ok v →
        (store.runAction ev (.assign location text)).1 = some (.evaluation location err) ∧
          (store.runAction ev (.assign location text)).2.context = s

/-- An assignment at a path has been made. -/
structure Assigned (s : Scope) (location : String) (path : List String) (v : Json) (t : Scope) :
    Prop where
  assign_eq : assign s location v = .ok t
  /-- The value is read back. -/
  read : readPath t path = v
  /-- No frame around the innermost one has changed. -/
  enclosing : t.enclosing = s.enclosing
  /-- Another assignment at the location does what it would have done at once. -/
  again : ∀ u, assign t location u = assign s location u

theorem assign_of_mem {κ : Type} [Context κ] {c : κ}
    (h : "" ∈ Text.dotted (bareLocation location)) :
    assign c location v = .error (.invalidExpression (.badLocation (bareLocation location))) := by
  rw [assign, locationPath]
  simp only [if_pos h]

theorem assign_of_not_mem {κ : Type} [Context κ] {c : κ}
    (h : "" ∉ Text.dotted (bareLocation location)) :
    assign c location v = .ok (writePath c (Text.dotted (bareLocation location)) v) := by
  rw [assign, locationPath]
  simp only [if_neg h]

theorem context_evaluate {κ σ : Type} (ev : Evaluator κ σ) (store : Store κ σ) (text : String) :
    (store.evaluate ev text).2.context = store.context := by
  unfold Store.evaluate
  split <;> rfl

theorem refused_of_error {err : Error} (h : assign s location v = .error err) :
    Refused s location v err := by
  refine ⟨h, fun σ ev store text hs hv => ?_⟩
  have hcontext := context_evaluate ev store text
  rcases he : store.evaluate ev text with ⟨r, store'⟩
  rw [he] at hv hcontext
  obtain rfl : r = .ok v := hv
  obtain rfl : store'.context = s := hcontext.trans hs
  rw [Store.runAction, he]
  dsimp only
  rw [h]
  exact ⟨rfl, rfl⟩

theorem assigned_of_not_mem (h : "" ∉ Text.dotted (bareLocation location)) (s : Scope) (v : Json) :
    Assigned s location (Text.dotted (bareLocation location)) v
      (writePath s (Text.dotted (bareLocation location)) v) where
  assign_eq := assign_of_not_mem h
  read := readPath_writePath (Text.dotted_ne_nil _) s v
  enclosing := enclosing_writePath s _ v
  again u := by rw [assign_of_not_mem h, assign_of_not_mem h, writePath_writePath]

/-- A location names one path.  If the path has an empty segment, then every assignment at the
location is refused.  Otherwise every value can be assigned: it is read back at the path whatever
has been there before, the frames around the innermost one keep their variables even if the written
one has been theirs, and a second assignment at the location does what it would have done without
the first. -/
theorem assign_reads_back (s : Scope) (location : String) (v : Json) :
    ∃ path, (∀ p, Names location p ↔ p = path) ∧
      ("" ∈ path →
        Refused s location v (.invalidExpression (.badLocation (bareLocation location)))) ∧
      ("" ∉ path → ∃ t, Assigned s location path v t) :=
  ⟨Text.dotted (bareLocation location), fun _ => names_iff,
    fun h => refused_of_error (assign_of_mem h), fun h => ⟨_, assigned_of_not_mem h s v⟩⟩

/-- An empty frame inside of one with an order. -/
def orderScope : Scope :=
  ⟨[], [[("order", .object [("id", .ofNat 7), ("total", .ofNat 5)])]]⟩

/-- The inherited order is copied, with an object in the place of its total. -/
theorem assign_reads_back_inherited :
    Names "ctx.order.total.net" ["order", "total", "net"] ∧
      ∃ t, Assigned orderScope "ctx.order.total.net" ["order", "total", "net"] (.ofNat 9) t ∧
        t.own = [("order",
          .object [("id", .ofNat 7), ("total", .object [("net", .ofNat 9)])])] := by
  have hnames : Names "ctx.order.total.net" ["order", "total", "net"] :=
    ⟨by decide, by decide, .inl (by decide)⟩
  obtain ⟨path, hpath, -, hmade⟩ := assign_reads_back orderScope "ctx.order.total.net" (.ofNat 9)
  obtain rfl := (hpath _).1 hnames
  obtain ⟨t, ht⟩ := hmade (by decide)
  have hassign : assign orderScope "ctx.order.total.net" (.ofNat 9) = .ok ⟨[("order",
      .object [("id", .ofNat 7), ("total", .object [("net", .ofNat 9)])])],
        orderScope.enclosing⟩ := by
    rfl
  refine ⟨hnames, t, ht, ?_⟩
  have heq := ht.assign_eq
  rw [hassign] at heq
  cases heq
  rfl

end Statechart
