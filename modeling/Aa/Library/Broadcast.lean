import Mathlib.Data.List.Basic
import Mathlib.Logic.Function.Basic

/-!
# Broadcasts

A publication appends items to a log and copies the list of the readers in one step. Its
deliveries are made afterwards, one after the other, and may fall between those of other
publications. What has been brought to a reader, what it has not taken and what is on its
way to it are together what was published while it was subscribed, each item once, and in
the order of the log if no two publications overlap.
-/

namespace Aa.Library

universe u v

/-- A log with its readers, and the deliveries that each publication has still to make. -/
structure Topic (Item : Type u) (Reader : Type v) where
  log : List Item := []
  subscribers : List Reader := []
  flights : List (List (Reader × Item)) := []
  inbox : Reader → List Item := fun _ => []
  lost : Reader → List Item := fun _ => []

/-- The lists have the same items, in the same order if it matters. -/
def Agree {Item : Type u} (ordered : Prop) (first second : List Item) : Prop :=
  first.Perm second ∧ (ordered → first = second)

namespace Agree

variable {Item : Type u} {ordered : Prop} {first second third : List Item}

theorem refl (items : List Item) : Agree ordered items items := ⟨.refl items, fun _ => rfl⟩

theorem trans (left : Agree ordered first second) (right : Agree ordered second third) :
    Agree ordered first third :=
  ⟨left.1.trans right.1, fun isOrdered => (left.2 isOrdered).trans (right.2 isOrdered)⟩

theorem append_right (agree : Agree ordered first second) (items : List Item) :
    Agree ordered (first ++ items) (second ++ items) :=
  ⟨agree.1.append_right items, fun isOrdered => by rw [agree.2 isOrdered]⟩

theorem append_left (items : List Item) (agree : Agree ordered first second) :
    Agree ordered (items ++ first) (items ++ second) :=
  ⟨agree.1.append_left items, fun isOrdered => by rw [agree.2 isOrdered]⟩

end Agree

namespace Topic

section Deliveries

variable {Item : Type u} {Reader : Type v} {topic : Topic Item Reader} {index : ℕ}

def publish (topic : Topic Item Reader) (items : List Item) : Topic Item Reader :=
  { topic with
    log := topic.log ++ items
    flights := topic.flights ++ [topic.subscribers.flatMap fun reader => items.map (reader, ·)] }

/-- The next delivery of a publication, with the publication's other ones. -/
def nextOf (topic : Topic Item Reader) (index : ℕ) :
    Option ((Reader × Item) × List (Reader × Item)) :=
  match topic.flights[index]? with
  | some (delivery :: rest) => some (delivery, rest)
  | _ => none

def subscribe (topic : Topic Item Reader) (reader : Reader) : Topic Item Reader :=
  { topic with subscribers := topic.subscribers ++ [reader] }

/-- No publication has deliveries to make. -/
def Quiet (topic : Topic Item Reader) : Prop := topic.flights.flatten = []

/-- At most one publication has deliveries to make. -/
def Serial (topic : Topic Item Reader) : Prop :=
  (topic.flights.filter fun flight => !flight.isEmpty).length ≤ 1

theorem nextOf_eq_some {delivery : Reader × Item} {rest : List (Reader × Item)}
    (isNext : topic.nextOf index = some (delivery, rest)) :
    ∃ before after, topic.flights = before ++ (delivery :: rest) :: after ∧
      topic.flights.set index rest = before ++ rest :: after := by
  simp only [nextOf] at isNext
  split at isNext
  · rename_i isFlight
    cases isNext
    rcases List.getElem?_eq_some_iff.mp isFlight with ⟨inRange, isFlight⟩
    refine ⟨topic.flights.take index, topic.flights.drop (index + 1), ?_, ?_⟩
    · rw [← isFlight, List.getElem_cons_drop, List.take_append_drop]
    · rw [List.set_eq_take_append_cons_drop, if_pos inRange]
  · cases isNext

theorem flatten_eq_nil_of_filter {flights : List (List (Reader × Item))}
    (noneLeft : flights.filter (fun flight => !flight.isEmpty) = []) : flights.flatten = [] := by
  rw [List.flatten_eq_nil_iff]
  intro flight isFlight
  have isEmpty := List.filter_eq_nil_iff.mp noneLeft flight isFlight
  simpa using isEmpty

/-- The publication that makes a delivery is the only one with deliveries to make. -/
theorem Serial.alone (serial : topic.Serial) {delivery : Reader × Item}
    {rest : List (Reader × Item)} {before after : List (List (Reader × Item))}
    (isFlights : topic.flights = before ++ (delivery :: rest) :: after) :
    before.flatten = [] ∧ after.flatten = [] := by
  rw [Serial, isFlights] at serial
  simp only [List.filter_append, List.filter_cons, List.isEmpty_cons, Bool.not_false, if_true,
    List.length_append, List.length_cons] at serial
  exact ⟨flatten_eq_nil_of_filter (List.length_eq_zero_iff.mp (by omega)),
    flatten_eq_nil_of_filter (List.length_eq_zero_iff.mp (by omega))⟩

theorem serial_publish (quiet : topic.Quiet) (items : List Item) : (topic.publish items).Serial := by
  have noneLeft : topic.flights.filter (fun flight => !flight.isEmpty) = [] := by
    rw [List.filter_eq_nil_iff]
    intro flight isFlight
    simpa using List.flatten_eq_nil_iff.mp quiet flight isFlight
  rw [Serial, publish, List.filter_append, noneLeft, List.nil_append]
  exact List.length_filter_le _ _

theorem serial_set (serial : topic.Serial) {delivery : Reader × Item} {rest : List (Reader × Item)}
    (isNext : topic.nextOf index = some (delivery, rest)) :
    ((topic.flights.set index rest).filter fun flight => !flight.isEmpty).length ≤ 1 := by
  rcases nextOf_eq_some isNext with ⟨before, after, isFlights, isSet⟩
  rw [Serial, isFlights] at serial
  simp only [List.filter_append, List.filter_cons, List.isEmpty_cons, Bool.not_false, if_true,
    List.length_append, List.length_cons] at serial
  rw [isSet, List.filter_append, List.filter_cons, List.length_append]
  split
  · rw [List.length_cons]
    omega
  · omega

end Deliveries

/-! ## What is due to a reader -/

variable {Item : Type u} {Reader : Type v} [DecidableEq Reader] {topic next : Topic Item Reader}
  {items : List Item} {reader other : Reader} {index : ℕ} {ordered : Prop}

/-- The publication with this index makes its next delivery. -/
def deliver (topic : Topic Item Reader) (index : ℕ) : Option (Topic Item Reader) :=
  (topic.nextOf index).map fun (delivery, rest) =>
    { topic with
      flights := topic.flights.set index rest
      inbox := Function.update topic.inbox delivery.1 (topic.inbox delivery.1 ++ [delivery.2]) }

/-- Its reader does not take the delivery. -/
def discard (topic : Topic Item Reader) (index : ℕ) : Option (Topic Item Reader) :=
  (topic.nextOf index).map fun (delivery, rest) =>
    { topic with
      flights := topic.flights.set index rest
      lost := Function.update topic.lost delivery.1 (topic.lost delivery.1 ++ [delivery.2]) }

def unsubscribe (topic : Topic Item Reader) (reader : Reader) : Topic Item Reader :=
  { topic with subscribers := topic.subscribers.erase reader }

/-- The items of some deliveries that are for a reader. -/
def itemsFor (reader : Reader) (deliveries : List (Reader × Item)) : List Item :=
  (deliveries.filter (·.1 = reader)).map (·.2)

def underway (topic : Topic Item Reader) (reader : Reader) : List Item :=
  itemsFor reader topic.flights.flatten

/-- What has been brought to a reader, what it has not taken, and what is on its way to it. -/
def due (topic : Topic Item Reader) (reader : Reader) : List Item :=
  topic.inbox reader ++ topic.lost reader ++ topic.underway reader

@[simp]
theorem itemsFor_append (first second : List (Reader × Item)) :
    itemsFor reader (first ++ second) = itemsFor reader first ++ itemsFor reader second := by
  simp [itemsFor]

theorem itemsFor_cons_self (item : Item) (rest : List (Reader × Item)) :
    itemsFor reader ((reader, item) :: rest) = item :: itemsFor reader rest := by
  simp [itemsFor]

theorem itemsFor_cons_of_ne (isOther : other ≠ reader) (item : Item)
    (rest : List (Reader × Item)) :
    itemsFor reader ((other, item) :: rest) = itemsFor reader rest := by
  simp [itemsFor, isOther]

theorem itemsFor_copies (readers : List Reader) (nodup : readers.Nodup) :
    itemsFor reader (readers.flatMap fun reader => items.map (reader, ·)) =
      if reader ∈ readers then items else [] := by
  induction readers with
  | nil => rfl
  | cons first rest ih =>
      rcases List.nodup_cons.mp nodup with ⟨notLater, restNodup⟩
      rw [List.flatMap_cons, itemsFor_append, ih restNodup]
      by_cases isFirst : first = reader
      · subst isFirst
        simp [itemsFor, notLater, List.filter_map, Function.comp_def]
      · simp [itemsFor, isFirst, List.filter_map, Function.comp_def, Ne.symm isFirst]

theorem due_publish (nodup : topic.subscribers.Nodup) (items : List Item) (reader : Reader) :
    (topic.publish items).due reader =
      topic.due reader ++ if reader ∈ topic.subscribers then items else [] := by
  simp [due, underway, publish, itemsFor_copies _ nodup]

/-- What a delivery takes from what is on its way. -/
theorem underway_set (reader : Reader) {item : Item} {rest : List (Reader × Item)}
    (isNext : topic.nextOf index = some ((other, item), rest)) :
    ∃ before after : List Item,
      topic.underway reader = before ++ (if other = reader then [item] else []) ++ after ∧
      itemsFor reader (topic.flights.set index rest).flatten = before ++ after ∧
      (topic.Serial → before = []) := by
  rcases nextOf_eq_some isNext with ⟨before, after, isFlights, isSet⟩
  refine ⟨itemsFor reader before.flatten, itemsFor reader rest ++ itemsFor reader after.flatten,
    ?_, ?_, fun serial => ?_⟩
  · rw [underway, isFlights, List.flatten_append, List.flatten_cons, List.cons_append,
      itemsFor_append]
    by_cases isReader : other = reader
    · subst isReader
      rw [itemsFor_cons_self, itemsFor_append, if_pos rfl, List.append_assoc]
      rfl
    · rw [itemsFor_cons_of_ne isReader, itemsFor_append, if_neg isReader, List.append_nil]
  · rw [isSet, List.flatten_append, List.flatten_cons, itemsFor_append, itemsFor_append]
  · rw [(serial.alone isFlights).1]
    rfl

/-- The reader whom a publication serves next, if it does. -/
def target (topic : Topic Item Reader) (index : ℕ) : Option Reader :=
  (topic.nextOf index).map fun (delivery, _) => delivery.1

/-- A delivery moves an item, which is the next one if publications do not overlap. -/
theorem due_deliver (reader : Reader) (serial : ordered → topic.Serial)
    (noLoss : ordered → topic.target index = some reader → topic.lost reader = [])
    (delivers : topic.deliver index = some next) :
    Agree ordered (next.due reader) (topic.due reader) := by
  rcases Option.map_eq_some_iff.mp delivers with ⟨⟨⟨other, item⟩, rest⟩, isNext, rfl⟩
  rcases underway_set reader isNext with ⟨before, after, isBefore, isAfter, inTurn⟩
  simp only [due, isBefore]
  rw [underway, isAfter]
  by_cases isReader : other = reader
  · subst isReader
    rw [Function.update_self, if_pos rfl]
    refine ⟨?_, fun isOrdered => ?_⟩
    · simp only [List.append_assoc]
      refine List.Perm.append_left _ ?_
      have moved : (topic.lost other ++ before ++ item :: after).Perm
          (item :: (topic.lost other ++ before ++ after)) := List.perm_middle
      simpa using moved.symm
    · have noneLost := noLoss isOrdered (by rw [target, isNext]; rfl)
      rw [noneLost, inTurn (serial isOrdered)]
      simp
  · rw [Function.update_of_ne (Ne.symm isReader), if_neg isReader, List.append_nil]
    exact .refl _

/-- A delivery that is not taken is lost. -/
theorem due_discard (reader : Reader) (serial : ordered → topic.Serial)
    (discards : topic.discard index = some next) :
    Agree ordered (next.due reader) (topic.due reader) := by
  rcases Option.map_eq_some_iff.mp discards with ⟨⟨⟨other, item⟩, rest⟩, isNext, rfl⟩
  rcases underway_set reader isNext with ⟨before, after, isBefore, isAfter, inTurn⟩
  simp only [due, isBefore]
  rw [underway, isAfter]
  by_cases isReader : other = reader
  · subst isReader
    rw [Function.update_self, if_pos rfl]
    refine ⟨?_, fun isOrdered => ?_⟩
    · simp only [List.append_assoc]
      refine List.Perm.append_left _ (List.Perm.append_left _ ?_)
      have moved : (before ++ item :: after).Perm (item :: (before ++ after)) := List.perm_middle
      simpa using moved.symm
    · rw [inTurn (serial isOrdered)]
      simp
  · rw [Function.update_of_ne (Ne.symm isReader), if_neg isReader, List.append_nil]
    exact .refl _

theorem serial_deliver (serial : topic.Serial) (delivers : topic.deliver index = some next) :
    next.Serial := by
  rcases Option.map_eq_some_iff.mp delivers with ⟨_, isNext, rfl⟩
  exact serial_set serial isNext

theorem serial_discard (serial : topic.Serial) (discards : topic.discard index = some next) :
    next.Serial := by
  rcases Option.map_eq_some_iff.mp discards with ⟨_, isNext, rfl⟩
  exact serial_set serial isNext

/-! ## Shares -/

/-- What is due to a reader is what was published from one point of the log to another, which
is its end as long as the reader is subscribed. -/
structure Share (ordered : Prop) (topic : Topic Item Reader) (reader : Reader) (since til : ℕ) :
    Prop where
  start : since ≤ til
  stop : til ≤ topic.log.length
  last : reader ∈ topic.subscribers → til = topic.log.length
  due : Agree ordered (topic.due reader) ((topic.log.take til).drop since)

namespace Share

variable {since til : ℕ}

theorem publish (share : Share ordered topic reader since til) (nodup : topic.subscribers.Nodup)
    (items : List Item) :
    ∃ later, til ≤ later ∧ Share ordered (topic.publish items) reader since later := by
  have isDue := due_publish nodup items reader
  by_cases subscribed : reader ∈ topic.subscribers
  · have atEnd := share.last subscribed
    refine ⟨(topic.log ++ items).length, by simp [atEnd], ?_, Nat.le_refl _, fun _ => rfl, ?_⟩
    · have isStart := share.start
      simp only [List.length_append]
      omega
    · rw [isDue, if_pos subscribed]
      have agree := share.due.append_right items
      have within : since ≤ topic.log.length := atEnd ▸ share.start
      rw [atEnd, List.take_length] at agree
      rw [Topic.publish, List.take_length, List.drop_append_of_le_length within]
      exact agree
  · refine ⟨til, Nat.le_refl _, share.start, ?_, fun isSubscribed => absurd isSubscribed subscribed, ?_⟩
    · have isStop := share.stop
      simp only [Topic.publish, List.length_append]
      omega
    · rw [isDue, if_neg subscribed, List.append_nil, Topic.publish,
        List.take_append_of_le_length share.stop]
      exact share.due

theorem deliver (share : Share ordered topic reader since til) (serial : ordered → topic.Serial)
    (noLoss : ordered → topic.target index = some reader → topic.lost reader = [])
    (delivers : topic.deliver index = some next) :
    Share ordered next reader since til := by
  have agree := due_deliver reader serial noLoss delivers
  rcases Option.map_eq_some_iff.mp delivers with ⟨_, _, rfl⟩
  exact ⟨share.start, share.stop, share.last, agree.trans share.due⟩

theorem discard (share : Share ordered topic reader since til) (serial : ordered → topic.Serial)
    (discards : topic.discard index = some next) : Share ordered next reader since til := by
  have agree := due_discard reader serial discards
  rcases Option.map_eq_some_iff.mp discards with ⟨_, _, rfl⟩
  exact ⟨share.start, share.stop, share.last, agree.trans share.due⟩

/-- To a new subscriber nothing is due. -/
theorem of_due_eq_nil (nothing : topic.due reader = []) :
    Share ordered (topic.subscribe reader) reader topic.log.length topic.log.length := by
  refine ⟨Nat.le_refl _, Nat.le_refl _, fun _ => rfl, ?_⟩
  change Agree ordered (topic.due reader) ((topic.log.take _).drop _)
  rw [nothing, List.take_length, List.drop_length]
  exact .refl _

theorem subscribe (share : Share ordered topic reader since til) (isOther : other ≠ reader) :
    Share ordered (topic.subscribe other) reader since til := by
  refine ⟨share.start, share.stop, fun subscribed => ?_, share.due⟩
  rcases List.mem_append.mp subscribed with already | isNew
  · exact share.last already
  · exact absurd (List.mem_singleton.mp isNew).symm isOther

theorem unsubscribe (share : Share ordered topic reader since til) (other : Reader) :
    Share ordered (topic.unsubscribe other) reader since til :=
  ⟨share.start, share.stop, fun subscribed => share.last (List.mem_of_mem_erase subscribed),
    share.due⟩

end Share

end Topic

end Aa.Library
