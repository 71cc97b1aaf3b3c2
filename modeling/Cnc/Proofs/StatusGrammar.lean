import Mathlib.Data.List.Forall2
import Mathlib.Data.List.Induction
import Cnc.Controller.Status
import Cnc.Proofs.Pieces

/-!
# Which texts are status reports

The reader of status reports goes from left to right and stops at what it does
not understand. Below is the grammar that it reads, without an order in which
to look at things: the enclosing signs, the state that the first field names,
and what each later field tells.

`MachineStatus.Report` assigns an outcome to every text by this grammar, and it
is the outcome of reading (`MachineStatus.parse_eq_iff_report`). A text is
refused for one reason only: what is wrong with the signs comes before what is
wrong with the state, that before the leftmost field that is malformed, and a
missing position comes last.

A field counts by its label. One that has none of the four labels tells
nothing and cannot be malformed, so `F1200` or `MPOS:x` are no faults.
-/

namespace Cnc

open Text

/-! ## The state -/

/-- **The state that a field names**: its text before any colon is the name of the state. -/
def MachineState.Names (field : List Char) (state : MachineState) : Prop :=
  state ∈ reportable ∧ state.name.toList = field.takeWhile (· ≠ ':')

theorem MachineState.ofField?_eq_some_iff {field : List Char} {state : MachineState} :
    ofField? field = some state ↔ Names field state := by
  have distinct : ∀ s ∈ reportable, ∀ t ∈ reportable, s.name.toList = t.name.toList → s = t := by
    decide +kernel
  constructor
  · intro found
    exact ⟨List.mem_of_find?_eq_some found, by simpa using List.find?_some found⟩
  · rintro ⟨member, same⟩
    cases found : ofField? field with
    | none =>
      have other := List.find?_eq_none.mp found state member
      exact absurd same (by simpa using other)
    | some state' =>
      have same' : state'.name.toList = field.takeWhile (· ≠ ':') := by
        simpa using List.find?_some found
      rw [distinct state' (List.mem_of_find?_eq_some found) state member (same'.trans same.symm)]

namespace MachineStatus

/-! ## Lists of numbers -/

/-- **A list of finite numbers**, with commas between them and blanks around each. -/
def Lists (list : List Char) (numbers : List Float) : Prop :=
  ∃ parts, Pieces ',' list parts ∧
    List.Forall₂ (fun part x => readFloat? (trim part) = some x ∧ x.isFinite) parts numbers

theorem readFinite?_eq_some_iff {text : List Char} {x : Float} :
    readFinite? text = some x ↔ readFloat? text = some x ∧ x.isFinite :=
  Option.filter_eq_some_iff

/-- Reading all of a list is reading each of its elements. -/
theorem mapM_eq_some_iff {α β : Type*} {f : α → Option β} {as : List α} {bs : List β} :
    as.mapM f = some bs ↔ List.Forall₂ (fun a b => f a = some b) as bs := by
  induction as generalizing bs with
  | nil =>
    rw [List.forall₂_nil_left_iff, List.mapM_nil, Option.pure_def, Option.some.injEq, eq_comm]
  | cons a as ih =>
    rw [List.mapM_cons]
    constructor
    · intro all
      obtain ⟨b, first, rest⟩ := Option.bind_eq_some_iff.mp all
      obtain ⟨bs', others, together⟩ := Option.bind_eq_some_iff.mp rest
      obtain rfl : b :: bs' = bs := Option.some.inj together
      exact .cons first (ih.mp others)
    · rintro (_ | ⟨first, others⟩)
      rw [first, ih.mpr others]
      rfl

theorem numbers?_eq_some_iff {list : List Char} {numbers : List Float} :
    numbers? list = some numbers ↔ Lists list numbers := by
  rw [numbers?, mapM_eq_some_iff]
  constructor
  · intro each
    exact ⟨_, pieces_iff.mpr rfl, each.imp fun _ _ => readFinite?_eq_some_iff.mp⟩
  · rintro ⟨parts, pieces, each⟩
    rw [pieces_iff.mp pieces]
    exact each.imp fun _ _ => readFinite?_eq_some_iff.mpr

/-! ## Fields -/

/-- What a field tells. -/
inductive Reading where
  | position (place : Point Float)
  | rates (rate speed : Float)
  | feed (rate : Float)
  | nothing

namespace Reading

/-- The position that a field gives. -/
def position? : Reading → Option (Point Float)
  | position place => some place
  | _ => none

/-- The feed that a field gives. -/
def feed? : Reading → Option Float
  | rates rate _ => some rate
  | feed rate => some rate
  | _ => none

/-- The spindle speed that a field gives. -/
def spindle? : Reading → Option Float
  | rates _ speed => some speed
  | _ => none

/-- What the last of the fields that give something gives. -/
def last? {α : Type} (gives : Reading → Option α) (readings : List Reading) : Option α :=
  (readings.filterMap gives).getLast?

@[simp] theorem last?_nil {α : Type} (gives : Reading → Option α) : last? gives [] = none := rfl

theorem last?_concat {α : Type} (gives : Reading → Option α) (readings : List Reading)
    (reading : Reading) :
    last? gives (readings ++ [reading]) = (gives reading).or (last? gives readings) := by
  rw [last?, List.filterMap_append, List.getLast?_append]
  cases found : gives reading <;> simp [found, last?]

end Reading

open Reading (last? last?_concat position? feed? spindle?)

/-- The labels of the fields that count. -/
def labels : List String := ["MPos:", "WPos:", "FS:", "F:"]

/-- **The fields after the first one**: what follows a label is a list with as many numbers as the
label asks for, and a field without a label tells nothing. -/
inductive Field : List Char → Reading → Prop
  | position {label : String} {list : List Char} {x y z : Float}
      (known : label = "MPos:" ∨ label = "WPos:") (numbers : Lists list [x, y, z]) :
      Field (label.toList ++ list) (.position ⟨x, y, z⟩)
  | rates {list : List Char} {rate speed : Float} (numbers : Lists list [rate, speed]) :
      Field ("FS:".toList ++ list) (.rates rate speed)
  | feed {list : List Char} {rate : Float} (numbers : Lists list [rate]) :
      Field ("F:".toList ++ list) (.feed rate)
  | other {field : List Char} (unlabelled : ∀ label ∈ labels, ¬ label.toList <+: field) :
      Field field .nothing

theorem after?_eq_some_iff {label : String} {field list : List Char} :
    after? label field = some list ↔ field = label.toList ++ list := by
  unfold after?
  split
  · next starts =>
    obtain ⟨rest, rfl⟩ := List.isPrefixOf_iff_prefix.mp starts
    rw [← String.length_toList, List.drop_left, Option.some.injEq, List.append_cancel_left_eq]
  · next other =>
    constructor
    · intro none
      exact absurd none (by simp)
    · rintro rfl
      exact absurd (List.isPrefixOf_iff_prefix.mpr (List.prefix_append _ _)) other

theorem after?_eq_none_iff {label : String} {field : List Char} :
    after? label field = none ↔ ¬ label.toList <+: field := by
  rw [Option.eq_none_iff_forall_ne_some]
  constructor
  · rintro none ⟨list, rfl⟩
    exact none list (after?_eq_some_iff.mpr rfl)
  · rintro other list found
    exact other ⟨list, (after?_eq_some_iff.mp found).symm⟩

theorem after?_append (label : String) (list : List Char) :
    after? label (label.toList ++ list) = some list :=
  after?_eq_some_iff.mpr rfl

/-- Adds what a field tells to what is known. -/
def Readings.note (r : Readings) : Reading → Readings
  | .position place => { r with position := some place }
  | .rates rate speed => { r with feed := rate, spindle := speed }
  | .feed rate => { r with feed := rate }
  | .nothing => r

/-- **A field is added** for what it tells. -/
theorem Readings.add?_of_field {field : List Char} {reading : Reading} (r : Readings)
    (told : Field field reading) : r.add? field = some (r.note reading) := by
  cases told with
  | @position label list x y z known numbers =>
    have labelled : (after? "MPos:" (label.toList ++ list)).or
        (after? "WPos:" (label.toList ++ list)) = some list := by
      rcases known with rfl | rfl
      · rw [after?_append]
        rfl
      · rw [after?_append]
        rfl
    simp only [add?, labelled, numbers?_eq_some_iff.mpr numbers]
    rfl
  | @rates list rate speed numbers =>
    have other : (after? "MPos:" ("FS:".toList ++ list)).or
        (after? "WPos:" ("FS:".toList ++ list)) = Option.none := rfl
    simp only [add?, other, after?_append,
      numbers?_eq_some_iff.mpr numbers]
    rfl
  | @feed list rate numbers =>
    have other : (after? "MPos:" ("F:".toList ++ list)).or
        (after? "WPos:" ("F:".toList ++ list)) = Option.none := rfl
    have single : after? "FS:" ("F:".toList ++ list) = Option.none := rfl
    simp only [add?, other, single, after?_append,
      numbers?_eq_some_iff.mpr numbers]
    rfl
  | other unlabelled =>
    have none (label : String) (known : label ∈ labels) : after? label field = Option.none :=
      after?_eq_none_iff.mpr (unlabelled label known)
    simp only [add?, none "MPos:" (by simp [labels]), none "WPos:" (by simp [labels]),
      none "FS:" (by simp [labels]), none "F:" (by simp [labels]), Option.or_none]
    rfl

/-- **What is added is what the field tells.** -/
theorem Readings.field_of_add? {r s : Readings} {field : List Char}
    (added : r.add? field = some s) :
    ∃ reading, Field field reading ∧ s = r.note reading := by
  unfold add? at added
  split at added
  · next list labelled =>
    have known : ∃ label, (label = "MPos:" ∨ label = "WPos:") ∧ field = label.toList ++ list := by
      rcases Option.or_eq_some_iff.mp labelled with machine | ⟨-, work⟩
      · exact ⟨_, .inl rfl, after?_eq_some_iff.mp machine⟩
      · exact ⟨_, .inr rfl, after?_eq_some_iff.mp work⟩
    obtain ⟨label, known, rfl⟩ := known
    split at added
    · next numbers =>
      exact ⟨_, .position known (numbers?_eq_some_iff.mp numbers), (Option.some.inj added).symm⟩
    · exact absurd added (by simp)
  · next noPosition =>
    obtain ⟨machine, work⟩ := Option.or_eq_none_iff.mp noPosition
    split at added
    · next list labelled =>
      obtain rfl := after?_eq_some_iff.mp labelled
      split at added
      · next numbers =>
        exact ⟨_, .rates (numbers?_eq_some_iff.mp numbers), (Option.some.inj added).symm⟩
      · exact absurd added (by simp)
    · next noRates =>
      split at added
      · next list labelled =>
        obtain rfl := after?_eq_some_iff.mp labelled
        split at added
        · next numbers =>
          exact ⟨_, .feed (numbers?_eq_some_iff.mp numbers), (Option.some.inj added).symm⟩
        · exact absurd added (by simp)
      · next noFeed =>
        have unlabelled : ∀ label ∈ labels, ¬ label.toList <+: field := by
          simp only [labels, List.forall_mem_cons, ← after?_eq_none_iff]
          exact ⟨machine, work, noRates, noFeed, by simp⟩
        exact ⟨_, .other unlabelled, (Option.some.inj added).symm⟩

/-- A field that the grammar allows. -/
def WellFormed (field : List Char) : Prop := ∃ reading, Field field reading

/-- The first of some fields that the grammar does not allow. -/
def FirstMalformed (fields : List (List Char)) (bad : List Char) : Prop :=
  ∃ good rest, fields = good ++ bad :: rest ∧ (∀ field ∈ good, WellFormed field) ∧ ¬ WellFormed bad

namespace Readings

variable {r s : Readings} {field : List Char} {fields : List (List Char)}

theorem add?_eq_none_iff : r.add? field = Option.none ↔ ¬ WellFormed field := by
  constructor
  · rintro none ⟨reading, told⟩
    exact absurd (none.symm.trans (r.add?_of_field told)) (by simp)
  · intro malformed
    cases added : r.add? field with
    | none => rfl
    | some s =>
      obtain ⟨reading, told, -⟩ := field_of_add? added
      exact absurd ⟨reading, told⟩ malformed

/-- **Fields that all tell something** are added one after the other. -/
theorem addAll_eq_ok_iff :
    r.addAll fields = .ok s ↔
      ∃ readings, List.Forall₂ Field fields readings ∧ s = readings.foldl note r := by
  induction fields generalizing r with
  | nil => simp [addAll, eq_comm]
  | cons field rest ih =>
    rw [addAll]
    constructor
    · intro all
      split at all
      · next r' added =>
        obtain ⟨reading, told, rfl⟩ := field_of_add? added
        obtain ⟨readings, others, rfl⟩ := ih.mp all
        exact ⟨reading :: readings, .cons told others, rfl⟩
      · exact absurd all (by simp)
    · rintro ⟨_, _ | ⟨told, others⟩, rfl⟩
      rw [r.add?_of_field told]
      exact ih.mpr ⟨_, others, rfl⟩

/-- **The first malformed field** ends the reading. -/
theorem addAll_eq_error_iff {e : StatusError} :
    r.addAll fields = .error e ↔
      ∃ bad, FirstMalformed fields bad ∧ e = .malformedField (String.ofList bad) := by
  induction fields generalizing r with
  | nil => simp [addAll, FirstMalformed]
  | cons field rest ih =>
    rw [addAll]
    constructor
    · intro refused
      split at refused
      · next r' added =>
        obtain ⟨reading, told, -⟩ := field_of_add? added
        obtain ⟨bad, ⟨good, rest', rfl, allowed, malformed⟩, rfl⟩ := ih.mp refused
        refine ⟨bad, ⟨field :: good, rest', rfl, ?_, malformed⟩, rfl⟩
        exact List.forall_mem_cons.mpr ⟨⟨reading, told⟩, allowed⟩
      · next none =>
        refine ⟨field, ⟨[], rest, rfl, by simp, add?_eq_none_iff.mp none⟩, ?_⟩
        exact (Except.error.inj refused).symm
    · rintro ⟨bad, ⟨good, rest', parts, allowed, malformed⟩, rfl⟩
      cases good with
      | nil =>
        obtain ⟨rfl, -⟩ := List.cons.inj parts
        rw [add?_eq_none_iff.mpr malformed]
      | cons first good =>
        obtain ⟨rfl, rfl⟩ := List.cons.inj parts
        obtain ⟨⟨reading, told⟩, allowed⟩ := List.forall_mem_cons.mp allowed
        rw [r.add?_of_field told]
        exact ih.mpr ⟨bad, ⟨good, rest', rfl, allowed, malformed⟩, rfl⟩

/-- **The last field of a kind counts**, and what no field tells is zero. -/
theorem foldl_note (readings : List Reading) :
    readings.foldl note none =
      ⟨last? position? readings, (last? feed? readings).getD 0.0,
        (last? spindle? readings).getD 0.0⟩ := by
  induction readings using List.reverseRecOn with
  | nil => rfl
  | append_singleton readings reading ih =>
    rw [List.foldl_append, ih, last?_concat, last?_concat, last?_concat]
    cases reading <;> rfl

end Readings

/-! ## Reports -/

/-- **The signs around a report**: without the blanks around it, the text is a body between `<`
and `>`. -/
def Enclosed (text body : List Char) : Prop := trim text = '<' :: (body ++ ['>'])

theorem body?_eq_some_iff {text body : List Char} :
    body? (trim text) = some body ↔ Enclosed text body := by
  unfold Enclosed
  generalize trim text = trimmed
  constructor
  · intro found
    unfold body? at found
    split at found
    · next rest =>
      split at found
      · next closed =>
        obtain ⟨inside, rfl⟩ := List.getLast?_eq_some_iff.mp closed
        rw [List.dropLast_concat, Option.some.injEq] at found
        rw [found]
      · exact absurd found (by simp)
    · exact absurd found (by simp)
  · rintro rfl
    simp [body?]

/-- **The outcome that the grammar assigns to a text.** -/
inductive Report (text : List Char) : Except StatusError MachineStatus → Prop
  | missingDelimiters (open_ : ∀ body, ¬ Enclosed text body) :
      Report text (.error (.missingDelimiters (String.ofList text)))
  | unknownState {body first : List Char} {later : List (List Char)}
      (enclosed : Enclosed text body) (fields : Pieces '|' body (first :: later))
      (unknown : ∀ state, ¬ MachineState.Names first state) :
      Report text (.error (.unknownState (String.ofList first)))
  | malformedField {body first bad : List Char} {later : List (List Char)} {state : MachineState}
      (enclosed : Enclosed text body) (fields : Pieces '|' body (first :: later))
      (named : MachineState.Names first state) (malformed : FirstMalformed later bad) :
      Report text (.error (.malformedField (String.ofList bad)))
  | missingPosition {body first : List Char} {later : List (List Char)} {state : MachineState}
      {readings : List Reading}
      (enclosed : Enclosed text body) (fields : Pieces '|' body (first :: later))
      (named : MachineState.Names first state) (told : List.Forall₂ Field later readings)
      (nowhere : last? position? readings = none) :
      Report text (.error .missingPosition)
  | ok {body first : List Char} {later : List (List Char)} {state : MachineState}
      {readings : List Reading} {position : Point Float}
      (enclosed : Enclosed text body) (fields : Pieces '|' body (first :: later))
      (named : MachineState.Names first state) (told : List.Forall₂ Field later readings)
      (there : last? position? readings = some position) :
      Report text (.ok {
        state, position
        feed := (last? feed? readings).getD 0.0
        spindle := (last? spindle? readings).getD 0.0 })

/-- What is done with the fields of an enclosed text. -/
theorem parse_of_enclosed {text body first : List Char} {later : List (List Char)}
    (enclosed : Enclosed text body) (fields : Pieces '|' body (first :: later)) :
    parse text =
      match MachineState.ofField? first with
      | none => .error (.unknownState (String.ofList first))
      | some state =>
        match Readings.none.addAll later with
        | .error e => .error e
        | .ok r =>
          match r.position with
          | none => .error .missingPosition
          | some position => .ok { state, position, feed := r.feed, spindle := r.spindle } := by
  unfold parse
  rw [body?_eq_some_iff.mpr enclosed]
  dsimp only
  rw [pieces_iff.mp fields]
  rfl

/-- **Every text is assigned what comes of reading it.** -/
theorem report_parse (text : List Char) : Report text (parse text) := by
  cases found : body? (trim text) with
  | none =>
    have open_ : ∀ body, ¬ Enclosed text body := fun body enclosed =>
      absurd (found.symm.trans (body?_eq_some_iff.mpr enclosed)) (by simp)
    rw [parse, found]
    exact .missingDelimiters open_
  | some body =>
    have enclosed : Enclosed text body := body?_eq_some_iff.mp found
    obtain ⟨first, later, parts⟩ := List.exists_cons_of_ne_nil (List.splitOn_ne_nil '|' body)
    have fields := pieces_iff.mpr parts
    rw [parse_of_enclosed enclosed fields]
    cases named : MachineState.ofField? first with
    | none =>
      refine .unknownState enclosed fields fun state names => ?_
      exact absurd (named.symm.trans (MachineState.ofField?_eq_some_iff.mpr names)) (by simp)
    | some state =>
      have names := MachineState.ofField?_eq_some_iff.mp named
      cases all : Readings.none.addAll later with
      | error e =>
        obtain ⟨bad, malformed, rfl⟩ := Readings.addAll_eq_error_iff.mp all
        exact .malformedField enclosed fields names malformed
      | ok r =>
        obtain ⟨readings, told, rfl⟩ := Readings.addAll_eq_ok_iff.mp all
        rw [Readings.foldl_note]
        cases there : last? position? readings with
        | none => exact .missingPosition enclosed fields names told there
        | some position => exact .ok enclosed fields names told there

/-- **The outcome of reading a text** is the one that the grammar assigns to it. -/
theorem parse_eq_iff_report {text : List Char} {outcome : Except StatusError MachineStatus} :
    parse text = outcome ↔ Report text outcome := by
  constructor
  · rintro rfl
    exact report_parse text
  · intro report
    cases report with
    | missingDelimiters open_ =>
      have none : body? (trim text) = none :=
        Option.eq_none_iff_forall_ne_some.mpr fun body found =>
          open_ body (body?_eq_some_iff.mp found)
      rw [parse, none]
    | unknownState enclosed fields unknown =>
      have none : MachineState.ofField? _ = none :=
        Option.eq_none_iff_forall_ne_some.mpr fun state found =>
          unknown state (MachineState.ofField?_eq_some_iff.mp found)
      rw [parse_of_enclosed enclosed fields, none]
    | malformedField enclosed fields named malformed =>
      rw [parse_of_enclosed enclosed fields, MachineState.ofField?_eq_some_iff.mpr named,
        Readings.addAll_eq_error_iff.mpr ⟨_, malformed, rfl⟩]
    | missingPosition enclosed fields named told nowhere =>
      rw [parse_of_enclosed enclosed fields, MachineState.ofField?_eq_some_iff.mpr named,
        Readings.addAll_eq_ok_iff.mpr ⟨_, told, rfl⟩, Readings.foldl_note, nowhere]
    | ok enclosed fields named told there =>
      rw [parse_of_enclosed enclosed fields, MachineState.ofField?_eq_some_iff.mpr named,
        Readings.addAll_eq_ok_iff.mpr ⟨_, told, rfl⟩, Readings.foldl_note, there]

/-- A known state is not enough: the report says where the machine is. -/
example : parse "<Hold:0|Bf:15,128|WCO:x>".toList = .error .missingPosition := by rfl

end MachineStatus

end Cnc
