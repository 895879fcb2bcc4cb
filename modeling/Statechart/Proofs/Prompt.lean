import Mathlib.Algebra.Group.Nat.Defs
import Mathlib.Data.List.TakeWhile
import Statechart.Prompt
import Statechart.Proofs.Expr.Dotted

/-!
# What input lines ask for

An input line holds a few parts: words, and at its end perhaps a payload, which may have blanks
inside.  However the parts are set out, the line is read for the event that they name.

* `Text.Row`, `Text.SetOut`: parts with blanks between them, and with any blanks around them;
* `Text.Solid`: a text that starts and ends with no blank.  Trimming leaves such a text
  (`Text.solid_trim`), and gives it back from any gaps around it (`Text.trim_gaps`);
* `Text.exists_firstWord_row`: the first word of a row is its first part, if that is a word, and the
  row of the other parts is left;
* `Text.Numeric`, `Text.unsigned?_of_numeric`: digits are read as the number that they stand for;
* `Line.Payload`: what may stand behind the name of an event, and the payload that it gives;
* `Line.parse_setOut`: a line asks for the event that is set out in it, and every event that a line
  asks for is an external one whose name is a word.
-/

namespace Statechart

namespace Text

/-- Every character is a blank. -/
def IsGap (cs : List Char) : Prop := ∀ c ∈ cs, isBlank c = true

instance : DecidablePred IsGap := List.decidableBAll (isBlank · = true)

/-- There are characters, and neither the first nor the last one is a blank. -/
structure Solid (cs : List Char) : Prop where
  first : ∃ c ∈ cs.head?, isBlank c = false
  last : ∃ c ∈ cs.getLast?, isBlank c = false

/-- Parts one behind the other, with a gap wherever two meet. -/
inductive Row : List String → List Char → Prop
  | nil : Row [] []
  | single (part : String) : Row [part] part.toList
  | cons {part next : String} {parts : List String} {cs : List Char} (gap : List Char)
      (blank : IsGap gap) (parted : gap ≠ []) (rest : Row (next :: parts) cs) :
      Row (part :: next :: parts) (part.toList ++ gap ++ cs)

/-- A line holds a row of parts, with any blanks around it. -/
def SetOut (parts : List String) (line : String) : Prop :=
  ∃ before row behind, IsGap before ∧ Row parts row ∧ IsGap behind ∧
    line.toList = before ++ row ++ behind

/-- ASCII digits that stand for a number below `2 ^ 64`. -/
structure Numeric (s : String) (n : Nat) : Prop where
  ne_empty : s ≠ ""
  digits : ∀ c ∈ s.toList, c.isDigit = true
  value : decimalValue s.toList = n
  lt : n < 2 ^ 64

variable {cs w gap before behind : List Char} {parts : List String} {s part : String} {c : Char}
  {n : Nat}

/-! ### Trimming -/

theorem Solid.ne_nil (h : Solid cs) : cs ≠ [] := by
  rintro rfl
  obtain ⟨c, hc, -⟩ := h.first
  cases hc

theorem solid_of_isWord (h : IsWord s) : Solid s.toList where
  first := ⟨_, List.head?_eq_some_head h.toList_ne_nil, h.2 _ (List.head_mem _)⟩
  last := ⟨_, List.getLast?_eq_some_getLast h.toList_ne_nil, h.2 _ (List.getLast_mem _)⟩

theorem Solid.append (h : Solid w) (h' : Solid cs) (gap : List Char) : Solid (w ++ gap ++ cs) where
  first := by
    obtain ⟨c, hc, hblank⟩ := h.first
    exact ⟨c, by simp [Option.mem_def.1 hc], hblank⟩
  last := by
    obtain ⟨c, hc, hblank⟩ := h'.last
    exact ⟨c, by simp [Option.mem_def.1 hc], hblank⟩

/-- Dropping blanks ends where a gap ends. -/
theorem dropWhile_gap (hgap : IsGap gap) (h : ∃ c ∈ cs.head?, isBlank c = false) :
    (gap ++ cs).dropWhile isBlank = cs := by
  obtain ⟨c, hc, hblank⟩ := h
  refine (takeWhile_of_stops hgap fun d hd => ?_).2
  cases Option.mem_unique hc hd
  exact hblank

/-- Trimming takes away the gaps around a solid text. -/
theorem trim_gaps (hbefore : IsGap before) (h : Solid cs) (hbehind : IsGap behind) :
    trimRight (trimLeft (before ++ cs ++ behind)) = cs := by
  have hleft : trimLeft (before ++ cs ++ behind) = cs ++ behind := by
    rw [trimLeft, List.append_assoc]
    obtain ⟨c, hc, hblank⟩ := h.first
    exact dropWhile_gap hbefore ⟨c, by simp [Option.mem_def.1 hc], hblank⟩
  have hgap : IsGap behind.reverse := fun c hc => hbehind c (List.mem_reverse.1 hc)
  rw [hleft, trimRight, List.reverse_append, dropWhile_gap hgap (by simpa using h.last),
    List.reverse_reverse]

/-- What trimming leaves is solid, if anything is left. -/
theorem solid_trim (h : trimRight (trimLeft cs) ≠ []) : Solid (trimRight (trimLeft cs)) := by
  have hprefix : trimRight (trimLeft cs) <+: trimLeft cs := by
    rw [← List.reverse_suffix, trimRight, List.reverse_reverse]
    exact List.dropWhile_suffix _
  have hleft : trimLeft cs ≠ [] := fun hnil => h (List.prefix_nil.1 (hnil ▸ hprefix))
  have hlast : (trimLeft cs).reverse.dropWhile isBlank ≠ [] := by
    simpa [trimRight] using h
  constructor
  case first =>
    refine ⟨(trimLeft cs).head hleft, ?_, List.head_dropWhile_not isBlank hleft⟩
    rw [← hprefix.head h]
    exact List.head?_eq_some_head h
  case last =>
    refine ⟨_, ?_, List.head_dropWhile_not isBlank hlast⟩
    rw [trimRight, List.getLast?_reverse]
    exact List.head?_eq_some_head hlast

/-- A text that trimming does not change is solid. -/
theorem solid_of_trim (h : trim s = s) (hne : s ≠ "") : Solid s.toList := by
  have hs : trimRight (trimLeft s.toList) = s.toList := by
    have h' := congrArg String.toList h
    rwa [trim, String.toList_ofList] at h'
  rw [← hs]
  refine solid_trim ?_
  rw [hs]
  simpa using hne

/-! ### Rows -/

/-- A row of solid parts is solid, and starts as its first part does. -/
theorem Row.solid {row : List Char} (h : Row (part :: parts) row)
    (hparts : ∀ p ∈ part :: parts, Solid p.toList) :
    Solid row ∧ row.head? = part.toList.head? := by
  generalize hps : part :: parts = ps at h
  induction h generalizing part parts with
  | nil => cases hps
  | single p =>
    cases hps
    exact ⟨hparts _ (List.mem_singleton_self _), rfl⟩
  | @cons p next rest cs gap blank parted _ ih =>
    cases hps
    have hpart := hparts p (List.mem_cons_self ..)
    obtain ⟨hrest, -⟩ := ih (fun q hq => hparts q (List.mem_cons_of_mem _ hq)) rfl
    refine ⟨hpart.append hrest gap, ?_⟩
    obtain ⟨c, hc, -⟩ := hpart.first
    simp [Option.mem_def.1 hc]

/-- The first word of a row is its first part, and the other parts are left. -/
theorem exists_firstWord_row {row : List Char} (h : Row (s :: parts) row) (hs : IsWord s)
    (hparts : ∀ p ∈ parts, Solid p.toList) :
    ∃ rest, firstWord row = (s.toList, rest) ∧ Row parts rest := by
  have hword : ∀ c ∈ s.toList, (!isBlank c) = true := fun c hc => by simp [hs.2 c hc]
  cases h with
  | single =>
    refine ⟨[], ?_, .nil⟩
    rw [firstWord, List.takeWhile_eq_self_iff.2 hword, List.dropWhile_eq_nil_iff.2 hword]
    rfl
  | @cons _ next rest cs gap blank parted hrest =>
    refine ⟨cs, ?_, hrest⟩
    obtain ⟨d, ds, rfl⟩ := List.exists_cons_of_ne_nil parted
    have hstop : ∀ c ∈ (d :: ds ++ cs).head?, (!isBlank c) = false := by
      rintro _ ⟨⟩
      simp [blank d (List.mem_cons_self ..)]
    obtain ⟨htake, hdrop⟩ := takeWhile_of_stops hword hstop
    rw [firstWord, List.append_assoc, htake, hdrop, trimLeft,
      dropWhile_gap blank (hrest.solid hparts).1.first]

theorem Solid.firstWord_ne_nil (h : Solid cs) : (firstWord cs).1 ≠ [] := by
  obtain ⟨c, hc, hblank⟩ := h.first
  obtain ⟨rest, rfl⟩ := List.head?_eq_some_iff.1 hc
  simp [firstWord, hblank]

theorem isWord_firstWord (h : (firstWord cs).1 ≠ []) : IsWord (String.ofList (firstWord cs).1) := by
  refine ⟨by simpa using h, fun c hc => ?_⟩
  rw [String.toList_ofList] at hc
  simpa using List.all_eq_true.1 (List.all_takeWhile (p := (! isBlank ·))) c hc

/-! ### Digits -/

theorem digitValue?_of_isDigit (h : c.isDigit = true) :
    digitValue? c = some (c.toNat - '0'.toNat) := by
  rw [Expr.isDigit_iff] at h
  have hle : '0' ≤ c ∧ c ≤ '9' := by
    simp only [Char.le_def, UInt32.le_iff_toNat_le]
    exact h
  rw [digitValue?, if_pos hle]

theorem value?_of_digits {acc : Nat} (h : ∀ c ∈ cs, c.isDigit = true) :
    value? 10 acc cs = some (cs.foldl (fun n c => n * 10 + (c.toNat - '0'.toNat)) acc) := by
  induction cs generalizing acc with
  | nil => rfl
  | cons c cs ih =>
    have hc := h c (List.mem_cons_self ..)
    have hlt : c.toNat - '0'.toNat < 10 := by
      rw [Expr.isDigit_iff] at hc
      simp only [Char.reduceToNat]
      omega
    rw [value?, digitValue?_of_isDigit hc]
    simp only [if_pos hlt]
    exact ih fun d hd => h d (List.mem_cons_of_mem _ hd)

/-- Digits are read as the number that they stand for. -/
theorem unsigned?_of_numeric (h : Numeric s n) : unsigned? s = some n := by
  obtain ⟨c, cs, hcs⟩ := List.exists_cons_of_ne_nil (l := s.toList) (by simpa using h.ne_empty)
  have hplus : c ≠ '+' := by
    rintro rfl
    exact absurd (h.digits '+' (hcs ▸ List.mem_cons_self ..)) (by decide)
  have hvalue : number? 10 s.toList = some n := by
    rw [number?, if_neg (by simp [hcs]), value?_of_digits h.digits, ← h.value]
    rfl
  unfold unsigned?
  rw [hcs] at hvalue ⊢
  have hlt : n < Nat.pow 2 64 := h.lt
  simp [hvalue, hplus, hlt]

theorem Numeric.isWord (h : Numeric s n) : IsWord s :=
  ⟨h.ne_empty, fun c hc => Expr.isBlank_of_isDigit (h.digits c hc)⟩

/-- The decimal text of a number. -/
theorem numeric_toString (h : n < 2 ^ 64) : Numeric (toString n) n where
  ne_empty := by
    obtain ⟨d, ds, hds, -⟩ := Expr.exists_cons_of_toString n
    rintro hnil
    rw [hnil] at hds
    cases hds
  digits _ := Expr.isDigit_of_mem_toString
  value := Expr.decimalValue_toString n
  lt := h

end Text

open Text (IsWord SetOut Row Numeric Solid)

namespace Line

/-- What may stand behind the name of an event, and the payload that it gives: nothing, or a text
without blanks around it, of which the reader of payloads is asked for no more than its value. -/
inductive Payload : List String → Json → Prop
  | absent : Payload [] .null
  | text {p : String} {data : Json} (trimmed : Text.trim p = p)
      (value : Json.ofText? p = some data) : Payload [p] data

/-- The event that a line asks for, at once or after a delay. -/
def event? : Line → Option Event
  | send e | after _ e => some e
  | _ => none

/-- The words that are commands where a line starts with them. -/
def commands : List String := ["quit", "exit", "help", "config", "after"]

variable {args : List String} {data : Json} {w delay line : String} {ms : Nat} {e : Event}

/-! ### From the parts of a line to an event -/

theorem Payload.solid (h : Payload args data) : ∀ p ∈ args, Solid p.toList := by
  cases h with
  | absent => simp
  | @text p _ trimmed value =>
    rw [List.forall_mem_singleton]
    refine Text.solid_of_trim trimmed ?_
    rintro rfl
    have hnone : Json.ofText? "" = none := by decide +kernel
    rw [hnone] at value
    cases value

theorem makeEvent_of_payload {payload : List Char} (h : Payload args data) (hrow : Row args payload)
    (w : String) :
    makeEvent w.toList payload = .ok { Event.external w with data := data } := by
  cases h with
  | absent =>
    cases hrow
    rw [makeEvent, String.ofList_toList]
    rfl
  | @text p _ trimmed value =>
    have hsolid := (Payload.text trimmed value).solid p (List.mem_singleton_self p)
    cases hrow
    rw [makeEvent, String.ofList_toList, String.ofList_toList, value]
    simp [hsolid.ne_nil]

/-- Behind the word `after` stand a delay, a name and perhaps a payload. -/
theorem parseAfter_of_row {cs : List Char} (hd : Numeric delay ms) (hw : IsWord w)
    (hp : Payload args data) (hrow : Row (delay :: w :: args) cs) :
    parseAfter cs = .ok (.after ms { Event.external w with data := data }) := by
  have hsolid : ∀ p ∈ w :: args, Solid p.toList :=
    List.forall_mem_cons.2 ⟨Text.solid_of_isWord hw, hp.solid⟩
  obtain ⟨rest, hdelay, hrest⟩ := Text.exists_firstWord_row hrow hd.isWord hsolid
  obtain ⟨payload, hname, hpayload⟩ := Text.exists_firstWord_row hrest hw hp.solid
  have hne : w.toList.isEmpty = false := List.isEmpty_eq_false_iff.2 hw.toList_ne_nil
  have hms : Text.unsigned? (String.ofList delay.toList) = some ms := by
    rw [String.ofList_toList]
    exact Text.unsigned?_of_numeric hd
  simp only [parseAfter, hdelay, hms, hname, hne, Bool.false_eq_true, if_false,
    makeEvent_of_payload hp hpayload]

/-- A line that does not start with a hash is cut after its first part. -/
theorem exists_row_of_setOut {parts : List String} (h : SetOut (w :: parts) line) (hw : IsWord w)
    (hhash : w.toList.head? ≠ some '#') (hparts : ∀ p ∈ parts, Solid p.toList) :
    ∃ row rest, Text.trimRight (Text.trimLeft line.toList) = row ∧
      ¬ (row.isEmpty ∨ row.head? = some '#') ∧
      Text.firstWord row = (w.toList, rest) ∧ Row parts rest := by
  obtain ⟨before, row, behind, hbefore, hrow, hbehind, hline⟩ := h
  obtain ⟨hsolid, hhead⟩ :=
    hrow.solid (List.forall_mem_cons.2 ⟨Text.solid_of_isWord hw, hparts⟩)
  obtain ⟨rest, hfirst, hrest⟩ := Text.exists_firstWord_row hrow hw hparts
  refine ⟨row, rest, ?_, ?_, hfirst, hrest⟩
  · rw [hline, Text.trim_gaps hbefore hsolid hbehind]
  · rw [hhead]
    simp [hsolid.ne_nil, hhash]

theorem parse_after (hd : Numeric delay ms) (hw : IsWord w) (hp : Payload args data)
    (h : SetOut ("after" :: delay :: w :: args) line) :
    parse line = .ok (.after ms { Event.external w with data := data }) := by
  have hsolid : ∀ p ∈ delay :: w :: args, Solid p.toList :=
    List.forall_mem_cons.2 ⟨Text.solid_of_isWord hd.isWord,
      List.forall_mem_cons.2 ⟨Text.solid_of_isWord hw, hp.solid⟩⟩
  obtain ⟨row, rest, htrim, hrow, hfirst, hrest⟩ :=
    exists_row_of_setOut h (by decide) (by decide) hsolid
  simp only [parse, htrim, if_neg hrow, hfirst, String.ofList_toList]
  exact parseAfter_of_row hd hw hp hrest

theorem parse_send (hw : IsWord w) (hcommand : w ∉ commands) (hhash : w.toList.head? ≠ some '#')
    (hp : Payload args data) (h : SetOut (w :: args) line) :
    parse line = .ok (.send { Event.external w with data := data }) := by
  obtain ⟨row, payload, htrim, hrow, hfirst, hpayload⟩ := exists_row_of_setOut h hw hhash hp.solid
  have hmake := makeEvent_of_payload hp hpayload w
  simp only [parse, htrim, if_neg hrow, hfirst, String.ofList_toList, hmake]
  split
  case h_6 => rfl
  all_goals exact absurd (by decide) hcommand

/-! ### From a line to its event -/

theorem eq_of_makeEvent {name payload : List Char} (h : makeEvent name payload = .ok e) :
    e.kind = .external ∧ e.name = String.ofList name := by
  unfold makeEvent at h
  dsimp only at h
  split at h
  · cases h
    exact ⟨rfl, rfl⟩
  · split at h
    · cases h
      exact ⟨rfl, rfl⟩
    · cases h

theorem event_of_parseAfter {cs : List Char} {l : Line} (h : parseAfter cs = .ok l)
    (he : l.event? = some e) : e.kind = .external ∧ IsWord e.name := by
  unfold parseAfter at h
  dsimp only at h
  split at h
  · cases h
  · split at h
    · cases h
    · next hname =>
      split at h
      · cases h
      · next hmake =>
        cases h
        cases he
        obtain ⟨hkind, heq⟩ := eq_of_makeEvent hmake
        exact ⟨hkind, heq ▸ Text.isWord_firstWord (by simpa using hname)⟩

theorem event_of_parse {l : Line} (h : parse line = .ok l) (he : l.event? = some e) :
    e.kind = .external ∧ IsWord e.name := by
  unfold parse at h
  dsimp only at h
  split at h
  · cases h
    cases he
  · next hrow =>
    split at h
    case h_5 => exact event_of_parseAfter h he
    case h_6 =>
      split at h
      · cases h
      · next hmake =>
        cases h
        cases he
        have hne : Text.trimRight (Text.trimLeft line.toList) ≠ [] := fun hnil =>
          hrow (.inl (by simp [hnil]))
        obtain ⟨hkind, heq⟩ := eq_of_makeEvent hmake
        exact ⟨hkind, heq ▸ Text.isWord_firstWord (Text.solid_trim hne).firstWord_ne_nil⟩
    all_goals
      cases h
      cases he

/-- A line asks for the event that is set out in it: after a delay if it starts with the word `after`
and a number, and at once if it starts with the name of the event, which is then no command and does
not start with a hash.  Every event that a line asks for is an external one whose name is a word. -/
theorem parse_setOut :
    (∀ ms < 2 ^ 64, Numeric (toString ms) ms) ∧
    (∀ {delay w line : String} {ms : Nat} {args : List String} {data : Json}, Numeric delay ms →
      IsWord w → Payload args data → SetOut ("after" :: delay :: w :: args) line →
        parse line = .ok (.after ms { Event.external w with data := data })) ∧
    (∀ {w line : String} {args : List String} {data : Json}, IsWord w → w ∉ commands →
      w.toList.head? ≠ some '#' → Payload args data → SetOut (w :: args) line →
        parse line = .ok (.send { Event.external w with data := data })) ∧
    ∀ {line : String} {l : Line} {e : Event}, parse line = .ok l → l.event? = some e →
      e.kind = .external ∧ IsWord e.name :=
  ⟨fun _ => Text.numeric_toString, parse_after, parse_send, event_of_parse⟩

/-- An event that has the name of a command, after a delay, and one at once, with blanks of several
kinds around their parts. -/
theorem parse_setOut_quit :
    parse "\u3000after\t0250  quit\u00a0[true, null] \n" =
        .ok (.after 250 { Event.external "quit" with data := .array [.bool true, .null] }) ∧
      parse " tick\r\n" = .ok (.send (Event.external "tick")) ∧
      (Event.external "tick").kind = .external ∧ IsWord (Event.external "tick").name := by
  obtain ⟨-, hafter, hsend, hevent⟩ := parse_setOut
  have hvalue : Json.ofText? "[true, null]" = some (.array [.bool true, .null]) := by rfl
  have hdelayed : SetOut ["after", "0250", "quit", "[true, null]"]
      "\u3000after\t0250  quit\u00a0[true, null] \n" :=
    ⟨['\u3000'], _, [' ', '\n'], by decide,
      .cons ['\t'] (by decide) (by decide)
        (.cons [' ', ' '] (by decide) (by decide)
          (.cons ['\u00a0'] (by decide) (by decide) (.single _))), by decide, by decide⟩
  have hat : SetOut ["tick"] " tick\r\n" :=
    ⟨[' '], _, ['\r', '\n'], by decide, .single _, by decide, by decide⟩
  have htick := hsend (by decide) (by decide) (by decide) .absent hat
  have hdelay : Numeric "0250" 250 :=
    ⟨by decide, List.all_eq_true.1 (by decide), by decide, by decide⟩
  exact ⟨hafter hdelay (by decide) (.text (by decide) hvalue) hdelayed, htick, hevent htick rfl⟩

end Line

end Statechart
