import Statechart.Chart.Printer
import Statechart.Chart.Reader
import Statechart.Proofs.Json.Fields
import Statechart.Proofs.Text.Words

/-!
# Reading records that were written

A record is written from a table: names with values, of which some are absent.  The names in the
table differ from each other, so sorting the fields loses none of them, and a reader that declares
just these names finds each value again.

* `Json.document`: a value as a document, its objects sorted;
* `Fields.present`: the fields of a table that have a value;
* `exists_fields?`: the reader of a record is given what the table says;
* `orElse_optional`, `orElse_word`, `orElse_listed`, `required_document`: the value of one field;
* `height_lt_array`, `height_lt_object`: what is nested in a value is less high.
-/

namespace Statechart

open Text (IsWord)

/-! ### The tree of an encoded value -/

namespace Json

/-- A value as a document, with the fields of all objects in the order of their names. -/
def document (v : Json) : Tree := .ofJson v.sorted

/-- An array, unless it has no items. -/
def array? : List Json → Option Json
  | [] => none
  | items => some (.array items)

theorem sortedItems_eq_map (items : List Json) : sortedItems items = items.map sorted := by
  induction items with
  | nil => rfl
  | cons v vs ih => rw [sortedItems, ih, List.map_cons]

theorem sortedFields_eq_map (fields : List (String × Json)) :
    sortedFields fields = fields.map fun p => (p.1, p.2.sorted) := by
  induction fields with
  | nil => rfl
  | cons p rest ih => rw [sortedFields, ih, List.map_cons]

end Json

namespace Tree

theorem ofItems_eq_map (items : List Json) : ofItems items = items.map ofJson := by
  induction items with
  | nil => rfl
  | cons v vs ih => rw [ofItems, ih, List.map_cons]

theorem ofFields_eq_map (fields : List (String × Json)) :
    ofFields fields = fields.map fun p => (some p.1, ofJson p.2) := by
  induction fields with
  | nil => rfl
  | cons p rest ih => rw [ofFields, ih, List.map_cons]

end Tree

namespace Json

@[simp] theorem document_string (s : String) : (Json.string s).document = .text s := rfl

@[simp] theorem document_array (items : List Json) :
    (Json.array items).document = .list (items.map document) := by
  simp [document, sorted, sortedItems_eq_map, Tree.ofJson, Tree.ofItems_eq_map]

theorem document_object (fields : List (String × Json)) :
    (Json.object fields).document = .record ((Fields.ofList (sortedFields fields)).map
      fun p => (some p.1, Tree.ofJson p.2)) := by
  simp [document, sorted, ofFields, Tree.ofJson, Tree.ofFields_eq_map]

theorem keys_sortedFields (fields : List (String × Json)) :
    (sortedFields fields).map Prod.fst = fields.map Prod.fst := by
  rw [sortedFields_eq_map, List.map_map]
  rfl

theorem get?_sortedFields (fields : List (String × Json)) (name : String) :
    Fields.get? (sortedFields fields) name = (Fields.get? fields name).map sorted := by
  induction fields with
  | nil => rfl
  | cons p rest ih => by_cases h : p.1 = name <;> simp [sortedFields, Fields.get?, h, ih]

end Json

/-! ### Fields that are present -/

namespace Fields

/-- The fields of a table that have a value. -/
def present (table : List (String × Option Json)) : List (String × Json) :=
  table.filterMap fun p => p.2.map (p.1, ·)

variable {table : List (String × Option Json)}

theorem present_append (a b : List (String × Option Json)) :
    present (a ++ b) = present a ++ present b :=
  List.filterMap_append

theorem singleton_eq_present (name : String) (v : Json) :
    [(name, v)] = present [(name, some v)] := rfl

theorem keys_present_sublist : ((present table).map Prod.fst).Sublist (table.map Prod.fst) := by
  induction table with
  | nil => exact .slnil
  | cons p rest ih =>
    obtain ⟨name, v⟩ := p
    cases v with
    | none => exact ih.cons name
    | some v => exact ih.cons_cons name

theorem get?_present (h : (table.map Prod.fst).Nodup) {p : String × Option Json} (hp : p ∈ table) :
    get? (present table) p.1 = p.2 := by
  induction table with
  | nil => cases hp
  | cons q rest ih =>
    obtain ⟨name, v⟩ := q
    rw [List.map_cons, List.nodup_cons] at h
    rcases List.mem_cons.1 hp with rfl | hrest
    · cases v with
      | none => exact get?_eq_none fun hmem => h.1 (keys_present_sublist.subset hmem)
      | some v => simp [present, get?]
    · have hne : name ≠ p.1 := fun heq => h.1 (List.mem_map.2 ⟨p, hrest, heq.symm⟩)
      cases v with
      | none => exact ih h.2 hrest
      | some v => simpa [present, get?, hne] using ih h.2 hrest

/-- What is found in the object of a table is what the table says. -/
theorem get?_sorted_present (h : (table.map Prod.fst).Nodup) {p : String × Option Json}
    (hp : p ∈ table) :
    get? (ofList (Json.sortedFields (present table))) p.1 = p.2.map Json.sorted := by
  have hkeys : ((Json.sortedFields (present table)).map Prod.fst).Nodup := by
    rw [Json.keys_sortedFields]
    exact h.sublist keys_present_sublist
  rw [get?_ofList hkeys, Json.get?_sortedFields, get?_present h hp]

end Fields

/-! ### The height of an encoded value -/

namespace Tree

theorem height_le_heightItems {t : Tree} {items : List Tree} (h : t ∈ items) :
    t.height ≤ heightItems items := by
  induction items with
  | nil => cases h
  | cons u rest ih =>
    rcases List.mem_cons.1 h with rfl | h
    · exact Nat.le_max_left ..
    · exact (ih h).trans (Nat.le_max_right ..)

theorem height_le_heightFields {name : Option String} {t : Tree}
    {fields : List (Option String × Tree)} (h : (name, t) ∈ fields) :
    t.height ≤ heightFields fields := by
  induction fields with
  | nil => cases h
  | cons p rest ih =>
    rcases List.mem_cons.1 h with rfl | h
    · exact Nat.le_max_left ..
    · exact (ih h).trans (Nat.le_max_right ..)

theorem height_lt_array {v : Json} {items : List Json} (h : v ∈ items) :
    v.document.height < (Json.array items).document.height := by
  rw [Json.document_array, height]
  exact Nat.lt_succ_of_le (height_le_heightItems (List.mem_map_of_mem h))

theorem height_lt_object {table : List (String × Option Json)} (h : (table.map Prod.fst).Nodup)
    {name : String} {v : Json} (hp : (name, some v) ∈ table) :
    v.document.height < (Json.object (Fields.present table)).document.height := by
  have hv := Fields.mem_of_get? (Fields.get?_sorted_present h hp)
  rw [Json.document_object, height]
  exact Nat.lt_succ_of_le (height_le_heightFields (List.mem_map_of_mem hv))

end Tree

/-! ### Reading one record -/

namespace Tree

theorem lookup_singleton (k name : String) (t : Tree) :
    List.lookup name [(k, t)] = if name = k then some t else none := by
  by_cases h : name = k
  · simp [h]
  · simp [List.lookup_cons, beq_false_of_ne h, h]

/-- Of a record each of whose names stands there once, all declared fields are taken. -/
theorem exists_give (declared : List String) {fields : List (String × Json)}
    (h : (fields.map Prod.fst).Nodup) (given : Given)
    (fresh : ∀ p ∈ fields, given.lookup p.1 = none) :
    ∃ out : Given,
      (fields.map fun p => (some p.1, ofJson p.2)).foldlM (give declared) given = some out ∧
      ∀ name ∈ declared,
        out.lookup name = (given.lookup name).or ((Fields.get? fields name).map ofJson) := by
  induction fields generalizing given with
  | nil => exact ⟨given, rfl, by simp⟩
  | cons p rest ih =>
    obtain ⟨k, v⟩ := p
    rw [List.map_cons, List.nodup_cons] at h
    have hk : given.lookup k = none := fresh _ (List.mem_cons_self ..)
    have hrest : ∀ q ∈ rest, given.lookup q.1 = none := fun q hq =>
      fresh q (List.mem_cons_of_mem _ hq)
    have hne : ∀ q ∈ rest, q.1 ≠ k := fun q hq heq => h.1 (List.mem_map.2 ⟨q, hq, heq⟩)
    by_cases hd : k ∈ declared
    · -- The name joins those that are given, and the names that follow stay new.
      have hnew : ∀ q ∈ rest, (given ++ [(k, ofJson v)]).lookup q.1 = none := fun q hq => by
        rw [List.lookup_append, hrest q hq, lookup_singleton, if_neg (hne q hq)]
        rfl
      obtain ⟨out, hout, hlookup⟩ := ih h.2 _ hnew
      refine ⟨out, by simpa [give, hd, hk] using hout, fun name hname => ?_⟩
      rw [hlookup name hname, List.lookup_append, lookup_singleton]
      by_cases hkn : name = k
      · subst hkn
        simp [hk, Fields.get?]
      · simp [hkn, Ne.symm hkn, Fields.get?]
    · obtain ⟨out, hout, hlookup⟩ := ih h.2 given hrest
      refine ⟨out, by simpa [give, hd] using hout, fun name hname => ?_⟩
      have hkn : k ≠ name := fun heq => hd (heq ▸ hname)
      simp [hlookup name hname, Fields.get?, hkn]

/-- The reader of a record that declares the names of a table is given what the table says. -/
theorem exists_fields? (declared : List String) (table : List (String × Option Json))
    (hdeclared : table.map Prod.fst = declared) (h : declared.Nodup) :
    ∃ given, fields? declared (Json.object (Fields.present table)).document = some given ∧
      ∀ p ∈ table, given.lookup p.1 = p.2.map Json.document := by
  subst hdeclared
  obtain ⟨given, hgiven, hlookup⟩ := exists_give (table.map Prod.fst)
    (Fields.sorted_ofList (Json.sortedFields (Fields.present table))).nodup [] (by simp)
  refine ⟨given, by rw [Json.document_object]; exact hgiven, fun p hp => ?_⟩
  rw [hlookup p.1 (List.mem_map_of_mem hp), Fields.get?_sorted_present h hp]
  cases p.2 <;> rfl

/-! ### Reading one field -/

section Field

variable {α : Type} {read : Tree → Option α} {given : Given} {name : String}

theorem mapM_map_eq_some {β : Type} {read : β → Option α} {enc : α → β} {items : List α}
    (h : ∀ a ∈ items, read (enc a) = some a) : (items.map enc).mapM read = some items := by
  induction items with
  | nil => rfl
  | cons a rest ih =>
    simp only [List.map_cons, List.mapM_cons, h a (List.mem_cons_self ..),
      ih fun b hb => h b (List.mem_cons_of_mem _ hb), Option.bind_eq_bind, Option.bind_some,
      Option.pure_def]

theorem list?_document {enc : α → Json} {items : List α}
    (h : ∀ a ∈ items, read (enc a).document = some a) :
    list? read (Json.array (items.map enc)).document = some items := by
  rw [Json.document_array, List.map_map]
  exact mapM_map_eq_some h

theorem words?_document {ws : List String} (h : ∀ w ∈ ws, IsWord w) :
    words? (Json.array (ws.map .string)).document = some ws := by
  have texts : (ws.map Tree.text).mapM string? = some ws := mapM_map_eq_some fun _ _ => rfl
  rw [Json.document_array, List.map_map]
  show (((ws.map Tree.text).mapM string?).map fun texts => texts.flatMap Text.words) = some ws
  rw [texts, Option.map_some, Text.flatMap_words h]

theorem required_document {v : Json} {a : α} (hread : read v.document = some a)
    (h : given.lookup name = (some v).map Json.document) : given.required name read = some a := by
  simp [Given.required, h, hread]

theorem string?_document (s : String) : string? (Json.string s).document = some s := rfl

theorem orElse_optional {o : Option String}
    (h : given.lookup name = (o.map Json.string).map Json.document) :
    given.orElse name (optional? string?) none = some o := by
  cases o <;> simp [Given.orElse, h, optional?, string?]

theorem orElse_word {ofName? : String → Option α} {s : String} {a default : α}
    (ha : ofName? s = some a) (h : given.lookup name = (some (Json.string s)).map Json.document) :
    given.orElse name (fun t => (word? .value t).bind ofName?) default = some a := by
  simp [Given.orElse, h, word?, choice?, ha]

/-- A field that is left out where it has no items. -/
theorem orElse_listed {enc : α → Json} {items : List α} {read : Tree → Option (List α)}
    (hread : read (Json.array (items.map enc)).document = some items)
    (h : given.lookup name = (Json.array? (items.map enc)).map Json.document) :
    given.orElse name read [] = some items := by
  cases items with
  | nil => simp [Given.orElse, h, Json.array?]
  | cons a rest => simpa [Given.orElse, h, Json.array?] using hread

end Field

end Tree

end Statechart
