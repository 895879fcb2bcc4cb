import Statechart.Proofs.Chart.Worded
import Statechart.Proofs.Tree.Record

/-!
# The canonical encoding of charts

`Chart.toJson` leaves out what is absent or empty, and `Chart.ofJson` puts the defaults there.  Each
part of a chart has one table of its fields, in the order in which they are declared, and both
directions are about that table.

* `encodeAction_eq`, `encodeTransition_eq`, `encodeState_eq`, `encode_eq`: writing is writing the
  table;
* `readAction_encode`, `readTransition_encode`, `readState_encode`: what is written is read back, of
  lists of words if they are words;
* `ofJson_canonical`: the canonical encoding of an accepted chart is accepted and gives the same
  chart, so charts with equal encodings are equal.
-/

namespace Statechart

open Text (IsWord)

namespace Chart

/-! ### Tables of fields -/

/-- The word for an action. -/
def Action.name : Action → String
  | .log .. => "log"
  | .raise _ => "raise"
  | .assign .. => "assign"

/-- The fields of an action. -/
def Action.table : Action → List (String × Option Json)
  | .log label expr => [("label", label.map .string), ("expr", expr.map .string)]
  | .raise event => [("event", some (.string event))]
  | .assign location expr => [("location", some (.string location)), ("expr", some (.string expr))]

/-- The fields of a transition. -/
def TransitionEntry.table (t : TransitionEntry) : List (String × Option Json) :=
  [("event", Json.array? (t.event.map .string)), ("cond", t.cond.map .string),
    ("target", Json.array? (t.target.map .string)), ("type", some (.string t.type.name)),
    ("actions", Json.array? (t.actions.map encodeAction))]

/-- The fields of a state. -/
def StateEntry.table (s : StateEntry) : List (String × Option Json) :=
  [("id", s.id.map .string), ("type", some (.string s.type.name)),
    ("initial", s.initial.map .string),
    ("initial_transition", Json.array? (s.initialTransition.map .string)),
    ("onentry", Json.array? (s.onEntry.map encodeAction)),
    ("onexit", Json.array? (s.onExit.map encodeAction)),
    ("transitions", Json.array? (s.transitions.map encodeTransition)),
    ("states", Json.array? (s.states.map encodeState))]

/-- The fields of a chart. -/
def table (c : Chart) : List (String × Option Json) :=
  [("name", c.name.map .string), ("initial", c.initial.map .string),
    ("initial_transition", Json.array? (c.initialTransition.map .string)),
    ("states", some (.array (c.states.map encodeState)))]

theorem optionalField_eq (name : String) (o : Option String) :
    optionalField name o = Fields.present [(name, o.map .string)] := by
  cases o <;> rfl

theorem listField_eq (name : String) (items : List Json) :
    listField name items = Fields.present [(name, Json.array? items)] := by
  cases items <;> rfl

theorem encodeStates_eq_map (states : List StateEntry) :
    encodeStates states = states.map encodeState := by
  induction states with
  | nil => rfl
  | cons s rest ih => rw [encodeStates, ih, List.map_cons]

theorem encodeAction_eq (a : Action) :
    encodeAction a = .object [(a.name, .object (Fields.present a.table))] := by
  cases a with
  | log label expr =>
    simp only [encodeAction, Action.name, Action.table, optionalField_eq, ← Fields.present_append,
      List.cons_append, List.nil_append]
  | raise event => rfl
  | assign location expr => rfl

theorem encodeTransition_eq (t : TransitionEntry) :
    encodeTransition t = .object (Fields.present t.table) := by
  simp only [encodeTransition, TransitionEntry.table, optionalField_eq, listField_eq,
    Fields.singleton_eq_present, ← Fields.present_append, List.cons_append, List.nil_append]

theorem encodeState_eq (s : StateEntry) : encodeState s = .object (Fields.present s.table) := by
  obtain ⟨id, type, initial, initialTransition, onEntry, onExit, transitions, states⟩ := s
  simp only [encodeState, encodeStates_eq_map, StateEntry.table, optionalField_eq, listField_eq,
    Fields.singleton_eq_present, ← Fields.present_append, List.cons_append, List.nil_append]

theorem encode_eq (c : Chart) : c.encode = .object (Fields.present c.table) := by
  simp only [encode, encodeStates_eq_map, table, optionalField_eq, listField_eq,
    Fields.singleton_eq_present, ← Fields.present_append, List.cons_append, List.nil_append]

/-! ### Reading the parts of a chart -/

open Statechart.Tree

theorem StateType.ofName?_name (t : StateType) : ofName? t.name = some t := by
  cases t <;> decide

theorem transitionTypeOfName?_name (t : TransitionType) :
    TransitionType.ofName? t.name = some t := by
  cases t <;> decide

theorem choice?_document (name : String) (v : Json) :
    choice? .value (Json.object [(name, v)]).document = some (name, some v.document) := rfl

theorem choiceFields?_document (declared : List String) (fields : List (String × Json)) :
    choiceFields? .value declared (Json.object fields).document =
      fields? declared (Json.object fields).document := by
  rw [Json.document_object]
  rfl

theorem readAction_encode (a : Action) : readAction .value (encodeAction a).document = some a := by
  rw [encodeAction_eq]
  cases a with
  | log label expr =>
    obtain ⟨given, hgiven, hlookup⟩ :=
      exists_fields? ["label", "expr"] (Action.log label expr).table rfl (by decide)
    simp only [Action.table, List.forall_mem_cons] at hlookup
    obtain ⟨hlabel, hexpr, -⟩ := hlookup
    simp only [readAction, Action.name, choice?_document, choiceFields?_document, hgiven,
      orElse_optional hlabel, orElse_optional hexpr, Option.bind_eq_bind, Option.bind_some,
      Option.pure_def]
  | raise event =>
    obtain ⟨given, hgiven, hlookup⟩ :=
      exists_fields? ["event"] (Action.raise event).table rfl (by decide)
    simp only [Action.table, List.forall_mem_cons] at hlookup
    obtain ⟨hevent, -⟩ := hlookup
    simp only [readAction, Action.name, choice?_document, choiceFields?_document, hgiven,
      required_document (string?_document _) hevent, Option.bind_eq_bind, Option.bind_some,
      Option.pure_def]
  | assign location expr =>
    obtain ⟨given, hgiven, hlookup⟩ :=
      exists_fields? ["location", "expr"] (Action.assign location expr).table rfl (by decide)
    simp only [Action.table, List.forall_mem_cons] at hlookup
    obtain ⟨hlocation, hexpr, -⟩ := hlookup
    simp only [readAction, Action.name, choice?_document, choiceFields?_document, hgiven,
      required_document (string?_document _) hlocation,
      required_document (string?_document _) hexpr, Option.bind_eq_bind, Option.bind_some,
      Option.pure_def]

theorem readTransition_encode {t : TransitionEntry} (ht : t.Worded) :
    readTransition .value (encodeTransition t).document = some t := by
  rw [encodeTransition_eq]
  obtain ⟨given, hgiven, hlookup⟩ :=
    exists_fields? ["event", "cond", "target", "type", "actions"] t.table rfl (by decide)
  simp only [TransitionEntry.table, List.forall_mem_cons] at hlookup
  obtain ⟨hevent, hcond, htarget, htype, hactions, -⟩ := hlookup
  simp only [readTransition, hgiven, orElse_listed (words?_document ht.event) hevent,
    orElse_optional hcond, orElse_listed (words?_document ht.target) htarget,
    orElse_word (transitionTypeOfName?_name t.type) htype,
    orElse_listed (list?_document fun a _ => readAction_encode a) hactions,
    Option.bind_eq_bind, Option.bind_some, Option.pure_def]

theorem height_lt_encodeState {s t : StateEntry} (h : t ∈ s.states) :
    (encodeState t).document.height < (encodeState s).document.height := by
  have hlist : (encodeState t).document.height <
      (Json.array (s.states.map encodeState)).document.height :=
    height_lt_array (List.mem_map_of_mem h)
  have hsome : Json.array? (s.states.map encodeState) =
      some (.array (s.states.map encodeState)) := by
    cases hs : s.states with
    | nil => rw [hs] at h; cases h
    | cons u rest => rfl
  have hfield : ("states", some (.array (s.states.map encodeState))) ∈ s.table := by
    rw [← hsome]
    simp [StateEntry.table]
  rw [encodeState_eq s]
  exact hlist.trans (height_lt_object (by simp [StateEntry.table]) hfield)

theorem height_lt_encode {c : Chart} {s : StateEntry} (h : s ∈ c.states) :
    (encodeState s).document.height < c.encode.document.height := by
  have hlist : (encodeState s).document.height <
      (Json.array (c.states.map encodeState)).document.height :=
    height_lt_array (List.mem_map_of_mem h)
  have hfield : ("states", some (.array (c.states.map encodeState))) ∈ c.table := by
    simp [table]
  rw [encode_eq c]
  exact hlist.trans (height_lt_object (by simp [table]) hfield)

/-- A state is read back if the fuel exceeds the height of its document. -/
theorem readState_encode {s : StateEntry} (hs : s.Worded) :
    ∀ fuel, (encodeState s).document.height < fuel →
      readState .value fuel (encodeState s).document = some s := by
  induction hs with
  | @intro s hinitial htransitions hstates ih =>
    intro fuel hfuel
    cases fuel with
    | zero => exact absurd hfuel (Nat.not_lt_zero _)
    | succ fuel =>
      -- The states in it are less high, so the fuel that is left suffices for them.
      have below : ∀ t ∈ s.states, readState .value fuel (encodeState t).document = some t :=
        fun t ht => ih t ht fuel (by have := height_lt_encodeState ht; omega)
      rw [encodeState_eq]
      obtain ⟨given, hgiven, hlookup⟩ := exists_fields? ["id", "type", "initial",
        "initial_transition", "onentry", "onexit", "transitions", "states"] s.table rfl (by decide)
      simp only [StateEntry.table, List.forall_mem_cons] at hlookup
      obtain ⟨hid, htype, hattribute, helement, honEntry, honExit, hlist, hchildren, -⟩ := hlookup
      simp only [readState, hgiven, orElse_optional hid, orElse_word s.type.ofName?_name htype,
        orElse_optional hattribute, orElse_listed (words?_document hinitial) helement,
        orElse_listed (list?_document fun a _ => readAction_encode a) honEntry,
        orElse_listed (list?_document fun a _ => readAction_encode a) honExit,
        orElse_listed (list?_document fun t ht => readTransition_encode (htransitions t ht)) hlist,
        orElse_listed (list?_document below) hchildren, Option.bind_eq_bind, Option.bind_some,
        Option.pure_def]
      cases s
      rfl

/-! ### Charts -/

theorem ofTree?_encode {c : Chart} (hc : c.Worded) : ofTree? .value c.encode.document = some c := by
  have states : ∀ s ∈ c.states,
      readState .value (c.encode.document.height + 1) (encodeState s).document = some s :=
    fun s hs => readState_encode (hc.states s hs) _ (by have := height_lt_encode hs; omega)
  obtain ⟨given, hgiven, hlookup⟩ :=
    exists_fields? ["name", "initial", "initial_transition", "states"] c.table rfl (by decide)
  rw [← encode_eq] at hgiven
  simp only [table, List.forall_mem_cons] at hlookup
  obtain ⟨hname, hattribute, helement, hstates, -⟩ := hlookup
  simp only [ofTree?, hgiven, orElse_optional hname, orElse_optional hattribute,
    orElse_listed (words?_document hc.initial) helement,
    required_document (list?_document states) hstates, Option.bind_eq_bind, Option.bind_some,
    Option.pure_def]

/-- A chart whose word lists hold words is read back from its canonical encoding. -/
theorem ofJson_toJson {c : Chart} (hc : c.Worded) : ofJson c.toJson = .ok c := by
  have read := ofTree?_encode hc
  rw [Json.document] at read
  rw [ofJson, toJson, read]

theorem worded_of_ofJson {v : Json} {c : Chart} (h : ofJson v = .ok c) : c.Worded := by
  unfold ofJson at h
  split at h
  · next hread =>
    cases h
    exact worded_of_ofTree? hread
  · cases h

/-- The canonical encoding of an accepted chart is accepted and gives the chart back, with the same
checksum and the same encoding; so accepted charts with one encoding are equal. -/
theorem ofJson_canonical {v : Json} {c : Chart} (h : ofJson v = .ok c) :
    (∃ c', ofJson c.toJson = .ok c' ∧ c' = c ∧ c'.checksum = c.checksum ∧ c'.toJson = c.toJson) ∧
      ∀ v' c', ofJson v' = .ok c' → c'.toJson = c.toJson → c' = c := by
  have back : ofJson c.toJson = .ok c := ofJson_toJson (worded_of_ofJson h)
  refine ⟨⟨c, back, rfl, rfl, rfl⟩, fun v' c' h' heq => ?_⟩
  have back' : ofJson c'.toJson = .ok c' := ofJson_toJson (worded_of_ofJson h')
  rw [heq, back] at back'
  exact (Except.ok.inj back').symm

/-- A chart with a state written as a list, words written as one text, nulls and unknown fields. -/
def mixedSpelling : Json :=
  .object [("initial", .string "on"), ("states", .array [
      .object [("id", .string "on"), ("initial_transition", .string " low\t high "),
        ("onentry", .array [.object [("log", .object [("expr", .null), ("label", .string "in")])]]),
        ("states", .array [
          .array [.string "low", .object [("state", .null)], .null, .null],
          .object [("id", .string "high"), ("note", .bool true), ("type", .string "final")]]),
        ("transitions", .array [
          .object [("actions", .array [.object [("raise", .object [("event", .string "done")])]]),
            ("cond", .null), ("event", .array [.string "go  stop", .string " error.* "]),
            ("target", .string "low")]])]]),
    ("version", .number (.integer 2))]

/-- The chart that it spells. -/
def mixedChart : Chart :=
  ⟨none, some "on", [], [
    ⟨some "on", .state, none, ["low", "high"], [.log (some "in") none], [],
      [⟨["go", "stop", "error.*"], none, ["low"], .external, [.raise "done"]⟩],
      [⟨some "low", .state, none, [], [], [], [], []⟩,
        ⟨some "high", .final, none, [], [], [], [], []⟩]⟩]⟩

theorem ofJson_mixedSpelling : ofJson mixedSpelling = .ok mixedChart := by
  rfl

theorem ofJson_canonical_mixed :
    ofJson mixedSpelling = .ok mixedChart ∧
      (∃ c', ofJson mixedChart.toJson = .ok c' ∧ c' = mixedChart ∧
        c'.checksum = mixedChart.checksum ∧ c'.toJson = mixedChart.toJson) ∧
      ∃ c', ofJson mixedChart.toJson = .ok c' ∧ c'.toJson = mixedChart.toJson ∧ c' = mixedChart :=
  have read : ofJson mixedSpelling = .ok mixedChart := ofJson_mixedSpelling
  have again : ofJson mixedChart.toJson = .ok mixedChart := by rfl
  ⟨read, (ofJson_canonical read).1, mixedChart, again, rfl,
    (ofJson_canonical read).2 _ mixedChart again rfl⟩

end Chart

end Statechart
