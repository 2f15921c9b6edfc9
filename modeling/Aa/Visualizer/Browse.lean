import Aa.Library.Each
import Aa.Library.GoTime
import Aa.Library.Grouping
import Aa.Memory.EventFile
import Aa.Visualizer.Session

/-!
# Browsing the sessions of a log

An event belongs to the session that its payload names, else to that of its project, else to
the default one. Listing groups the events of the log by session and summarizes each group;
loading reads the log again and filters it. The two agree: the loaded sessions are the parts of
the log, and each summary is one of the loaded events.
-/

namespace Aa.Visualizer

open Aa.Library Aa.Contracts
open Aa.Memory (EventRecord)

/-- Summarizes an observed session. A time is the text it is read from, if it can be read. -/
structure SessionSummary where
  id : SessionId
  projectId : String := ""
  actors : List String := []
  startSequence : ℤ
  endSequence : ℤ
  eventCount : ℕ
  startedAt : Option String := none
  endedAt : Option String := none

namespace Session

/-- The text of a time that can be read. -/
def readTime (text : String) : Option String := if GoTime.parsesRFC3339 text then some text else none

/-- The actors of some events, sorted, each once. -/
def actorsOf (events : List Event) : List String :=
  Go.sortStrings ((events.map (·.actor.id)).filter (· ≠ "")).dedup

/-- Derives a session summary from the events. -/
def summarize (sessionId : SessionId) (events : List Event) : Except Error SessionSummary :=
  match orderedCopy events with
  | [] => .error (.wrap .empty ("session " ++ Go.quote sessionId))
  | first :: rest =>
      let last := (first :: rest).getLast (List.cons_ne_nil first rest)
      .ok
        { id := sessionId
          projectId := (((first :: rest).find? (·.projectId ≠ "")).map (·.projectId)).getD ""
          actors := actorsOf (first :: rest)
          startSequence := first.sequence
          endSequence := last.sequence
          eventCount := (first :: rest).length
          startedAt := readTime first.occurredAt
          endedAt := readTime last.occurredAt }

end Session

/-- The session of events that carry neither a session id nor a project id. -/
def defaultSessionId : SessionId := "default"

/-- The session an event belongs to. -/
def sessionKey (e : Event) : SessionId :=
  match Session.payloadString e.payload "sessionId" with
  | some session => session
  | none => if e.projectId ≠ "" then e.projectId else defaultSessionId

/-- Lists and loads sessions from what a source returns, with `json.Unmarshal` of an event. -/
structure Browser where
  source : Except Error (List EventRecord)
  unmarshal : LineScanner.Bytes → Except String Event

namespace Browser

variable (b : Browser)

def decode (record : EventRecord) : Except Error Event :=
  match b.unmarshal record.data with
  | .ok e => .ok e
  | .error message =>
      .error (.wrap .invalid ("event " ++ Go.quote record.id ++ ": " ++ message))

def events : Except Error (List Event) := do
  let records ← b.source
  records.mapM b.decode

/-- The events of each session, in the order of the log. -/
def grouping : Grouping Event (SessionId × List Event) SessionId where
  key e := some (sessionKey e)
  start id := (id, [])
  add group e := (group.1, group.2 ++ [e])

/-- Session summaries sorted by session id. -/
def list : Except Error (List SessionSummary) := do
  let events ← b.events
  let sessions ← ((grouping.byKey events).entries.map Sigma.snd).mapM fun group =>
    Session.summarize group.1 group.2
  pure (sortBy (·.id) sessions)

/-- One session's events in the order of their sequences. -/
def load (sessionId : SessionId) : Except Error (List Event) :=
  if sessionId = "" then .error (.wrap .invalid "sessionId is required")
  else do
    let events ← b.events
    match events.filter (sessionKey · = sessionId) with
    | [] => .error (.wrap .notFound ("session " ++ Go.quote sessionId))
    | out => pure (sortBy (·.sequence) out)

/-! ## The parts of a log -/

/-- A summary says of the events of its session how many there are, where they begin and end,
and who acts in them. -/
structure Summarizes (s : SessionSummary) (loaded : List Event) : Prop where
  count : s.eventCount = loaded.length
  first : loaded.head?.map (·.sequence) = some s.startSequence
  last : loaded.getLast?.map (·.sequence) = some s.endSequence
  actors : ∀ actor, actor ∈ s.actors ↔ actor ≠ "" ∧ ∃ e ∈ loaded, e.actor.id = actor
  actorsOnce : s.actors.Nodup

/-- The loaded events are those of the session, in the order of their sequences. -/
structure Holds (events : List Event) (sessionId : SessionId) (loaded : List Event) : Prop where
  perm : loaded.Perm (events.filter (sessionKey · = sessionId))
  inSequence : loaded.Pairwise fun earlier later => earlier.sequence ≤ later.sequence

/-- The listed sessions part the events, and loading one of them gives its part. -/
structure Parts (b : Browser) (events : List Event) (sessions : List SessionSummary) :
    Prop where
  sorted : sessions.Pairwise fun first second => first.id < second.id
  one : ∀ e ∈ events, ∃! s, s ∈ sessions ∧ ∃ loaded, b.load s.id = .ok loaded ∧ e ∈ loaded
  loads : ∀ id, (∃ loaded, b.load id = .ok loaded) ↔ id ∈ sessions.map (·.id)
  agrees : ∀ s ∈ sessions, ∃ loaded, b.load s.id = .ok loaded ∧ Holds events s.id loaded ∧
    Summarizes s loaded

theorem sessionKey_ne_empty (e : Event) : sessionKey e ≠ "" := by
  rw [sessionKey]
  split
  · rename_i session isNamed
    rw [Session.payloadString] at isNamed
    split at isNamed
    · split at isNamed
      · cases isNamed
      · rename_i notEmpty
        rwa [← Option.some.inj isNamed]
    · cases isNamed
  · split
    · assumption
    · decide

variable {b} {events : List Event}

/-- Loading succeeds where the log has an event of the session. -/
theorem load_eq_ok (isEvents : b.events = .ok events) {id : SessionId} {loaded : List Event} :
    b.load id = .ok loaded ↔
      events.filter (sessionKey · = id) ≠ [] ∧
        loaded = sortBy (·.sequence) (events.filter (sessionKey · = id)) := by
  rw [load, isEvents]
  split
  · rename_i isEmpty
    have none : events.filter (sessionKey · = id) = [] := by
      refine List.filter_eq_nil_iff.mpr fun e _ isKey => sessionKey_ne_empty e ?_
      rw [of_decide_eq_true isKey, isEmpty]
    exact ⟨fun isLoaded => (by cases isLoaded), fun holds => absurd none holds.1⟩
  · simp only [bind, Except.bind]
    split
    · rename_i none
      exact ⟨fun isLoaded => (by cases isLoaded), fun holds => absurd none holds.1⟩
    · rename_i some
      exact ⟨fun isLoaded => ⟨some, (Except.ok.inj isLoaded).symm⟩,
        fun holds => congrArg Except.ok holds.2.symm⟩

theorem own_grouping (events : List Event) (id : SessionId) :
    grouping.own events id = events.filter (sessionKey · = id) :=
  List.filter_congr fun e _ => by simp [grouping]

theorem summary_grouping (events : List Event) (id : SessionId) :
    grouping.summary events id = (id, events.filter (sessionKey · = id)) := by
  have added (later : List Event) (group : SessionId × List Event) :
      later.foldl grouping.add group = (group.1, group.2 ++ later) := by
    induction later generalizing group with
    | nil => simp
    | cons e rest ih =>
        rw [List.foldl_cons, ih]
        simp [grouping]
  rw [Grouping.summary, own_grouping, added]
  rfl

/-- The groups are the non-empty parts of the log by session. -/
theorem mem_groups {group : SessionId × List Event} :
    group ∈ (grouping.byKey events).entries.map Sigma.snd ↔
      group.2 ≠ [] ∧ group.2 = events.filter (sessionKey · = group.1) := by
  have found (id : SessionId) : (grouping.byKey events).lookup id =
      if events.filter (sessionKey · = id) = [] then none
      else some (id, events.filter (sessionKey · = id)) := by
    rw [Grouping.lookup_byKey, own_grouping, summary_grouping]
  constructor
  · intro isThere
    rcases List.mem_map.mp isThere with ⟨⟨id, held⟩, isEntry, rfl⟩
    have isFound := found id
    rw [AList.mem_lookup_iff.mpr isEntry] at isFound
    split at isFound
    · cases isFound
    · rename_i some
      cases isFound
      exact ⟨some, rfl⟩
  · rintro ⟨some, isOwn⟩
    have isFound := found group.1
    rw [if_neg (isOwn ▸ some), ← isOwn] at isFound
    exact List.mem_map.mpr ⟨⟨group.1, group⟩, AList.mem_lookup_iff.mp isFound, rfl⟩

theorem groups_nodup (events : List Event) :
    (((grouping.byKey events).entries.map Sigma.snd).map Prod.fst).Nodup := by
  have isKey : ∀ entry ∈ (grouping.byKey events).entries, entry.2.1 = entry.1 := by
    rintro ⟨id, group⟩ isEntry
    have isFound := AList.mem_lookup_iff.mpr isEntry
    rw [Grouping.lookup_byKey] at isFound
    split at isFound
    · cases isFound
    · rw [← Option.some.inj isFound, summary_grouping]
  have keys : ((grouping.byKey events).entries.map Sigma.snd).map Prod.fst =
      (grouping.byKey events).keys := by
    rw [List.map_map]
    exact List.map_congr_left isKey
  rw [keys]
  exact (grouping.byKey events).nodupKeys

/-- Summarizing fails only for no events. -/
theorem summarize_spec (id : SessionId) {own : List Event} (nonempty : own ≠ []) :
    ∃ s, Session.summarize id own = .ok s ∧ s.id = id ∧
      Summarizes s (Session.orderedCopy own) := by
  rw [Session.summarize]
  cases isOrdered : Session.orderedCopy own with
  | nil => exact absurd (sortBy_eq_nil.mp isOrdered) nonempty
  | cons first rest =>
      refine ⟨_, rfl, rfl, rfl, rfl, ?_, fun actor => ?_, ?_⟩
      · rw [List.getLast?_eq_some_getLast (List.cons_ne_nil first rest)]
        rfl
      · simp only [Session.actorsOf, (Go.sortStrings_perm _).mem_iff, List.mem_dedup, List.mem_filter,
          List.mem_map, decide_eq_true_eq]
        exact and_comm
      · exact (List.perm_insertionSort _ _).nodup_iff.mpr (List.nodup_dedup _)

/-- What is listed: a summary of each non-empty part, by the ids of the sessions. -/
theorem list_spec (isEvents : b.events = .ok events) :
    ∃ sessions, b.list = .ok sessions ∧
      (sessions.Pairwise fun first second => first.id < second.id) ∧
      ∀ s, s ∈ sessions ↔ events.filter (sessionKey · = s.id) ≠ [] ∧
        Session.summarize s.id (events.filter (sessionKey · = s.id)) = .ok s := by
  have succeeds : ∀ group ∈ (grouping.byKey events).entries.map Sigma.snd,
      ∃ s, Session.summarize group.1 group.2 = .ok s := by
    intro group isThere
    rcases summarize_spec group.1 (mem_groups.mp isThere).1 with ⟨s, isSummary, _⟩
    exact ⟨s, isSummary⟩
  rcases exists_mapM succeeds with ⟨sessions, areSessions, each⟩
  have named : ∀ group s, group ∈ (grouping.byKey events).entries.map Sigma.snd →
      Session.summarize group.1 group.2 = .ok s → s.id = group.1 := by
    intro group s isThere isSummary
    rcases summarize_spec group.1 (mem_groups.mp isThere).1 with ⟨other, isOther, isNamed, _⟩
    rw [isOther] at isSummary
    rw [← Except.ok.inj isSummary, isNamed]
  have ids : sessions.map (·.id) =
      ((grouping.byKey events).entries.map Sigma.snd).map Prod.fst := by
    clear succeeds areSessions
    generalize (grouping.byKey events).entries.map Sigma.snd = groups at each named
    induction each with
    | nil => rfl
    | cons isSummary _ ih =>
        rw [List.map_cons, List.map_cons, named _ _ List.mem_cons_self isSummary,
          ih fun group s isThere => named group s (List.mem_cons_of_mem _ isThere)]
  have distinct : (sessions.map (·.id)).Nodup := ids ▸ groups_nodup events
  refine ⟨sortBy (·.id) sessions, ?_, ?_, fun s => ?_⟩
  · simp only [list, isEvents, bind, Except.bind, areSessions]
    rfl
  · have sortedIds : ((sortBy (·.id) sessions).map (·.id)).Nodup :=
      ((sortBy_perm sessions).map _).nodup_iff.mpr distinct
    exact (sortBy_sorted _).imp₂ (fun first second below apart => lt_of_le_of_ne below apart)
      (List.pairwise_map.mp sortedIds)
  · rw [mem_sortBy]
    constructor
    · intro isThere
      rcases forall₂_mem_right each isThere with ⟨group, isGroup, isSummary⟩
      rcases mem_groups.mp isGroup with ⟨nonempty, isOwn⟩
      rw [named group s isGroup isSummary, ← isOwn]
      exact ⟨nonempty, isSummary⟩
    · rintro ⟨nonempty, isSummary⟩
      have isGroup : (s.id, events.filter (sessionKey · = s.id)) ∈
          (grouping.byKey events).entries.map Sigma.snd := mem_groups.mpr ⟨nonempty, rfl⟩
      rcases forall₂_mem_right each.flip isGroup with ⟨other, isThere, isOther⟩
      rw [isSummary] at isOther
      rwa [Except.ok.inj isOther]

/-- Listing and loading part the log the same way. -/
theorem sessions_part_log (isEvents : b.events = .ok events) :
    ∃ sessions, b.list = .ok sessions ∧ Parts b events sessions := by
  rcases list_spec isEvents with ⟨sessions, isList, sorted, isSession⟩
  have listed (id : SessionId) :
      id ∈ sessions.map (·.id) ↔ events.filter (sessionKey · = id) ≠ [] := by
    constructor
    · intro isThere
      rcases List.mem_map.mp isThere with ⟨s, isListed, rfl⟩
      exact ((isSession s).mp isListed).1
    · intro nonempty
      rcases summarize_spec id nonempty with ⟨s, isSummary, rfl, _⟩
      exact List.mem_map.mpr ⟨s, (isSession s).mpr ⟨nonempty, isSummary⟩, rfl⟩
  refine ⟨sessions, isList, sorted, ?_, ?_, ?_⟩
  · intro e isThere
    have own : e ∈ events.filter (sessionKey · = sessionKey e) :=
      List.mem_filter.mpr ⟨isThere, by simp⟩
    rcases List.mem_map.mp ((listed (sessionKey e)).mpr (List.ne_nil_of_mem own)) with
      ⟨s, isListed, isKey⟩
    refine ⟨s, ⟨isListed, _, (load_eq_ok isEvents).mpr ⟨((isSession s).mp isListed).1, rfl⟩, ?_⟩,
      ?_⟩
    · rw [mem_sortBy, isKey]
      exact own
    · rintro other ⟨otherListed, loaded, isLoaded, isHeld⟩
      rw [(load_eq_ok isEvents).mp isLoaded |>.2, mem_sortBy] at isHeld
      have otherKey : sessionKey e = other.id := of_decide_eq_true (List.mem_filter.mp isHeld).2
      have sameParts := ((isSession s).mp isListed).2
      have otherParts := ((isSession other).mp otherListed).2
      rw [← otherKey, ← isKey] at otherParts
      exact Except.ok.inj (otherParts.symm.trans sameParts)
  · intro id
    rw [listed]
    constructor
    · rintro ⟨loaded, isLoaded⟩
      exact ((load_eq_ok isEvents).mp isLoaded).1
    · intro nonempty
      exact ⟨_, (load_eq_ok isEvents).mpr ⟨nonempty, rfl⟩⟩
  · intro s isListed
    rcases (isSession s).mp isListed with ⟨nonempty, isSummary⟩
    refine ⟨_, (load_eq_ok isEvents).mpr ⟨nonempty, rfl⟩, ⟨sortBy_perm _, sortBy_sorted _⟩, ?_⟩
    rcases summarize_spec s.id nonempty with ⟨other, isOther, _, summarizes⟩
    have same : s = other := Except.ok.inj (isSummary.symm.trans isOther)
    subst same
    exact summarizes

/-- The bytes of an ASCII text. -/
def asciiBytes (text : String) : LineScanner.Bytes := text.toList.map fun c => c.toNat.toUInt8

/-- An event with a project, and an earlier one of the same project that names a session. -/
def mixedBrowser : Browser where
  source := .ok
    [{ id := "e2", sequence := 2,
       data := asciiBytes "\x7b\"id\":\"e2\",\"projectId\":\"p1\",\"sequence\":2\x7d" },
      { id := "e1", sequence := 1,
        data := asciiBytes
          "\x7b\"id\":\"e1\",\"projectId\":\"p1\",\"sequence\":1,\"payload\":\x7b\"sessionId\":\"s\"\x7d\x7d" }]
  unmarshal data :=
    if data = asciiBytes "\x7b\"id\":\"e2\",\"projectId\":\"p1\",\"sequence\":2\x7d" then
      .ok { id := "e2", projectId := "p1", sequence := 2 }
    else .ok { id := "e1", projectId := "p1", sequence := 1, payload := [("sessionId", .str "s")] }

theorem mixedBrowser_parts :
    ∃ sessions, mixedBrowser.list = .ok sessions ∧ Parts mixedBrowser
      [{ id := "e2", projectId := "p1", sequence := 2 },
        { id := "e1", projectId := "p1", sequence := 1, payload := [("sessionId", .str "s")] }]
      sessions :=
  sessions_part_log (by rfl)

end Browser

end Aa.Visualizer
