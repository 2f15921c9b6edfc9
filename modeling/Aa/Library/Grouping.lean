import Aa.Library.GoText
import Aa.Library.StableSort

/-!
# Events summarized by key

One pass over a list of events keeps a summary of each key, and adds every event to the
summary of its key. What the summary of a key becomes depends on the events of that key
alone, in their order, so that the summaries of a list are known one by one.
-/

namespace Aa.Library

/-- How events are summarized: the key of an event, if it has one, the summary a key starts with,
and what an event adds to it. -/
structure Grouping (Event Summary Key : Type*) where
  key : Event → Option Key
  start : Key → Summary
  add : Summary → Event → Summary

namespace Grouping

variable {Event Summary Key : Type*} [LinearOrder Key] (grouping : Grouping Event Summary Key)

/-- Adds an event to the summary of its key. -/
def enter (byKey : GoMap Key Summary) (event : Event) : GoMap Key Summary :=
  match grouping.key event with
  | none => byKey
  | some key =>
      byKey.insert key (grouping.add ((byKey.lookup key).getD (grouping.start key)) event)

/-- The summaries of a list of events. -/
def byKey (events : List Event) : GoMap Key Summary := events.foldl grouping.enter ∅

/-- The events of one key. -/
def own (events : List Event) (key : Key) : List Event :=
  events.filter fun event => grouping.key event = some key

/-- The summary of the events of one key. -/
def summary (events : List Event) (key : Key) : Summary :=
  (grouping.own events key).foldl grouping.add (grouping.start key)

/-- The summaries, sorted by the key that stands in them. -/
def summaries (keyOf : Summary → Key) (events : List Event) : List Summary :=
  sortBy keyOf ((grouping.byKey events).entries.map Sigma.snd)

variable {grouping} {keyOf : Summary → Key} {events : List Event} {key : Key}

/-- The summary under one key is made of the events of that key. -/
theorem lookup_foldl_enter (byKey : GoMap Key Summary) :
    (events.foldl grouping.enter byKey).lookup key =
      if grouping.own events key = [] then byKey.lookup key
      else some ((grouping.own events key).foldl grouping.add
        ((byKey.lookup key).getD (grouping.start key))) := by
  induction events generalizing byKey with
  | nil => simp [own]
  | cons event rest ih =>
      rw [List.foldl_cons, ih]
      cases isKey : grouping.key event with
      | none => simp [enter, own, isKey]
      | some other =>
          by_cases same : other = key
          · subst same
            simp only [enter, own, isKey, List.filter_cons, decide_true, if_true,
              AList.lookup_insert, Option.getD_some, List.foldl_cons, reduceCtorEq, if_false]
            split
            · rename_i isNil
              rw [isNil, List.foldl_nil]
            · rfl
          · have apart : key ≠ other := fun isSame => same isSame.symm
            simp [enter, own, isKey, same, AList.lookup_insert_ne apart]

theorem lookup_byKey : (grouping.byKey events).lookup key =
    if grouping.own events key = [] then none else some (grouping.summary events key) := by
  rw [byKey, lookup_foldl_enter, AList.lookup_empty]
  rfl

/-- Of the values of a map that hold their own key, those with one key are what is found there. -/
theorem filter_values {entries : List (Sigma fun _ : Key => Summary)} (nodup : entries.NodupKeys)
    (named : ∀ entry ∈ entries, keyOf entry.2 = entry.1) :
    (entries.map Sigma.snd).filter (keyOf · = key) = (entries.dlookup key).toList := by
  induction entries with
  | nil => rfl
  | cons entry rest ih =>
      rcases List.nodupKeys_cons.mp nodup with ⟨isNew, restNodup⟩
      have isNamed := named entry List.mem_cons_self
      have ofRest := ih restNodup fun other isThere => named other (List.mem_cons_of_mem _ isThere)
      rw [List.map_cons, List.filter_cons, isNamed, ofRest]
      by_cases same : entry.1 = key
      · subst same
        rw [List.dlookup_cons_eq, List.dlookup_eq_none.mpr isNew]
        simp
      · rw [List.dlookup_cons_ne _ _ fun isSame => same isSame.symm]
        simp [same]

section Named

variable (start : ∀ key, keyOf (grouping.start key) = key)
  (add : ∀ summary event, keyOf (grouping.add summary event) = keyOf summary)

include start add

theorem keyOf_summary : keyOf (grouping.summary events key) = key := by
  have kept : ∀ (events : List Event) (summary : Summary),
      keyOf (events.foldl grouping.add summary) = keyOf summary := by
    intro events
    induction events with
    | nil => exact fun summary => rfl
    | cons event rest ih =>
        intro summary
        rw [List.foldl_cons, ih, add]
  rw [summary, kept, start]

/-- A key is summarized exactly once if it has an event, and else not at all. -/
theorem filter_summaries : (grouping.summaries keyOf events).filter (keyOf · = key) =
    if grouping.own events key = [] then [] else [grouping.summary events key] := by
  have named : ∀ entry ∈ (grouping.byKey events).entries, keyOf entry.2 = entry.1 := by
    intro entry isThere
    have found : (grouping.byKey events).lookup entry.1 = some entry.2 :=
      AList.mem_lookup_iff.mpr isThere
    rw [lookup_byKey] at found
    split at found
    · cases found
    · rw [← Option.some.inj found, keyOf_summary start add]
  rw [summaries, filter_sortBy, filter_values (grouping.byKey events).nodupKeys named]
  have found : (grouping.byKey events).lookup key = _ := lookup_byKey
  rw [AList.lookup] at found
  rw [found]
  split <;> rfl

end Named

end Grouping

end Aa.Library
