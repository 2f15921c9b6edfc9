import Aa.Visualizer.WellFormed

/-!
# What a graph says

The nodes of a projected graph are exactly what the events mention, and its edges exactly the
relations between them: which aggregates a session contains, which actor accessed which, what an
event names as its cause, which aggregate began a correlation, and what a payload assigns or
produces.
-/

namespace Aa.Visualizer.Session

open Aa.Library Aa.Contracts

/-! ## Relations -/

/-- The last of some events of an id. -/
def lastNamed (past : List Event) (id : String) : Option Event :=
  past.reverse.find? fun e => e.id = id

/-- The first of some events of a correlation. -/
def firstCorrelated (past : List Event) (correlationId : String) : Option Event :=
  past.find? fun e => e.correlationId = correlationId

/-- An event that follows others relates two nodes. -/
inductive Relates (sessionId : SessionId) (past : List Event) (e : Event) :
    NodeId → NodeId → String → Prop
  | contains : Relates sessionId past e (sessionNodeId sessionId) (aggregateId e) "contains"
  | access (named : e.actor.id ≠ "") :
      Relates sessionId past e (actorNodeId e.actor.id) (aggregateId e) "access"
  | causation {first : Event} (named : e.causationId ≠ "")
      (isCause : lastNamed (past ++ [e]) e.causationId = some first) :
      Relates sessionId past e (aggregateId first) (aggregateId e) "causation"
  | correlation {first : Event} (named : e.correlationId ≠ "")
      (isFirst : firstCorrelated past e.correlationId = some first) :
      Relates sessionId past e (aggregateId first) (aggregateId e) "correlation"
  | assigns {ref : String} (isRef : ref ∈ payloadString e.payload "workPackageId") :
      Relates sessionId past e (aggregateId e) (nodeIdFor "work_package" ref) "assigns"
  | produces {ref : String} (isRef : ref ∈ payloadString e.payload "artifactId") :
      Relates sessionId past e (aggregateId e) (nodeIdFor "artifact" ref) "produces"

/-- One of the events relates two different nodes. -/
def Related (sessionId : SessionId) (ordered : List Event) (source target : NodeId)
    (kind : String) : Prop :=
  source ≠ target ∧ ∃ past e rest, ordered = past ++ e :: rest ∧
    Relates sessionId past e source target kind

theorem related_append {sessionId : SessionId} {past : List Event} {e : Event}
    {source target : NodeId} {kind : String} :
    Related sessionId (past ++ [e]) source target kind ↔
      Related sessionId past source target kind ∨
        source ≠ target ∧ Relates sessionId past e source target kind := by
  constructor
  · rintro ⟨apart, before, event, rest, isSplit, relates⟩
    rcases List.eq_nil_or_concat rest with rfl | ⟨others, last, rfl⟩
    · rcases List.append_inj' isSplit rfl with ⟨rfl, isEvent⟩
      cases isEvent
      exact .inr ⟨apart, relates⟩
    · rw [List.concat_eq_append, ← List.cons_append, ← List.append_assoc] at isSplit
      rcases List.append_inj' isSplit rfl with ⟨isPast, -⟩
      exact .inl ⟨apart, before, event, others, isPast, relates⟩
  · rintro (⟨apart, before, event, rest, isSplit, relates⟩ | ⟨apart, relates⟩)
    · exact ⟨apart, before, event, rest ++ [e], by rw [isSplit]; simp, relates⟩
    · exact ⟨apart, past, e, [], rfl, relates⟩

/-! ## What the steps add -/

/-- A projection has just some nodes and some edges between different nodes more than another. -/
structure Adds (p q : Projection) (isNode : NodeId → Prop)
    (isEdge : NodeId → NodeId → String → Prop) : Prop where
  nodes : ∀ id, id ∈ q.nodes ↔ id ∈ p.nodes ∨ isNode id
  edges : ∀ key, key ∈ q.edges ↔ key ∈ p.edges ∨
    ∃ source target kind, source ≠ target ∧ isEdge source target kind ∧
      key = Projection.edgeKey source target kind
  drawn : ∀ key edge, q.edges.lookup key = some edge →
    (∃ before, p.edges.lookup key = some before ∧ ends before = ends edge) ∨
      edge.source ≠ edge.target ∧ isEdge edge.source edge.target edge.kind

namespace Adds

variable {p q r : Projection} {nodes moreNodes : NodeId → Prop}
  {edges moreEdges : NodeId → NodeId → String → Prop}

theorem nothing (sameNodes : ∀ id, id ∈ q.nodes ↔ id ∈ p.nodes)
    (sameEdges : q.edges = p.edges) : Adds p q (fun _ => False) (fun _ _ _ => False) := by
  constructor
  · intro id
    rw [sameNodes, or_false]
  · intro key
    simp [sameEdges]
  · intro key edge isEdge
    rw [sameEdges] at isEdge
    exact .inl ⟨edge, isEdge, rfl⟩

theorem trans (first : Adds p q nodes edges) (second : Adds q r moreNodes moreEdges) :
    Adds p r (fun id => nodes id ∨ moreNodes id)
      (fun source target kind => edges source target kind ∨ moreEdges source target kind) := by
  constructor
  · intro id
    rw [second.nodes, first.nodes, or_assoc]
  · intro key
    rw [second.edges, first.edges, or_assoc]
    refine or_congr_right ?_
    constructor
    · rintro (⟨source, target, kind, apart, isEdge, isKey⟩ | ⟨source, target, kind, apart, isEdge, isKey⟩)
      · exact ⟨source, target, kind, apart, .inl isEdge, isKey⟩
      · exact ⟨source, target, kind, apart, .inr isEdge, isKey⟩
    · rintro ⟨source, target, kind, apart, isEdge | isEdge, isKey⟩
      · exact .inl ⟨source, target, kind, apart, isEdge, isKey⟩
      · exact .inr ⟨source, target, kind, apart, isEdge, isKey⟩
  · intro key edge isEdge
    rcases second.drawn key edge isEdge with ⟨middle, isMiddle, same⟩ | ⟨apart, isDrawn⟩
    · rcases first.drawn key middle isMiddle with ⟨before, isBefore, again⟩ | ⟨apart, isDrawn⟩
      · exact .inl ⟨before, isBefore, again.trans same⟩
      · rcases middle with ⟨source, target, kind, sequence⟩
        cases same
        exact .inr ⟨apart, .inl isDrawn⟩
    · exact .inr ⟨apart, .inr isDrawn⟩

theorem congr (adds : Adds p q nodes edges) (sameNodes : ∀ id, nodes id ↔ moreNodes id)
    (sameEdges : ∀ source target kind, edges source target kind ↔ moreEdges source target kind) :
    Adds p q moreNodes moreEdges := by
  constructor
  · intro id
    rw [adds.nodes, sameNodes]
  · intro key
    simp only [adds.edges, sameEdges]
  · intro key edge isEdge
    rw [← sameEdges]
    exact adds.drawn key edge isEdge

end Adds

section Steps

variable (p : Projection)

theorem adds_ensure (id : NodeId) (kind ref : String) (sequence : ℤ) :
    Adds p (p.ensure id kind ref sequence) (· = id) (fun _ _ _ => False) := by
  constructor
  · intro other
    rw [← AList.lookup_isSome, lookup_ensure, Option.isSome_or, Bool.or_eq_true,
      AList.lookup_isSome]
    refine or_congr_right ?_
    by_cases isId : other = id <;> simp [isId]
  · simp
  · intro key edge isEdge
    rw [ensure_edges] at isEdge
    exact .inl ⟨edge, isEdge, rfl⟩

theorem adds_annotate (id : NodeId) (m : Compat.Metadata) :
    Adds p (p.annotate id m) (fun _ => False) (fun _ _ _ => False) := by
  refine .nothing ?_ ?_
  · intro other
    rw [Projection.annotate]
    cases isNode : p.nodes.lookup id with
    | none => rfl
    | some node =>
        simp only [AList.mem_insert, or_iff_right_iff_imp]
        rintro rfl
        rw [← AList.lookup_isSome, isNode]
        rfl
  · rw [Projection.annotate]
    split <;> rfl

theorem mem_connect_edges (source target : NodeId) (kind : String) (sequence : ℤ) (key : String) :
    key ∈ (p.connect source target kind sequence).edges ↔
      key ∈ p.edges ∨ key = Projection.edgeKey source target kind := by
  rw [Projection.connect]
  cases isHeld : p.edges.lookup (Projection.edgeKey source target kind) with
  | none => simp [AList.mem_insert, or_comm]
  | some existing =>
      have isThere : Projection.edgeKey source target kind ∈ p.edges := by
        rw [← AList.lookup_isSome, isHeld]
        rfl
      simp only
      split
      · simp [AList.mem_insert, or_comm]
      · constructor
        · exact .inl
        · rintro (isKey | rfl)
          · exact isKey
          · exact isThere

/-- An edge keeps its ends, if not its sequence. -/
theorem lookup_connect (source target : NodeId) (kind : String) (sequence : ℤ) {key : String}
    {edge : Edge} (isEdge : (p.connect source target kind sequence).edges.lookup key = some edge) :
    (∃ before, p.edges.lookup key = some before ∧ ends before = ends edge) ∨
      ends edge = (source, target, kind) := by
  simp only [Projection.connect] at isEdge
  by_cases isKey : key = Projection.edgeKey source target kind
  · subst isKey
    split at isEdge
    · rename_i existing isHeld
      split at isEdge
      · rw [AList.lookup_insert, Option.some.injEq] at isEdge
        exact .inl ⟨existing, isHeld, by rw [← isEdge]; rfl⟩
      · exact .inl ⟨edge, isEdge, rfl⟩
    · rw [AList.lookup_insert, Option.some.injEq] at isEdge
      exact .inr (by rw [← isEdge]; rfl)
  · left
    refine ⟨edge, ?_, rfl⟩
    revert isEdge
    repeat' split
    · rw [AList.lookup_insert_ne isKey]
      exact id
    · exact id
    · rw [AList.lookup_insert_ne isKey]
      exact id

@[simp]
theorem connect_nodes (source target : NodeId) (kind : String) (sequence : ℤ) :
    (p.connect source target kind sequence).nodes = p.nodes := by
  simp only [Projection.connect]
  repeat' split
  all_goals rfl

theorem adds_connect {source target : NodeId} (apart : source ≠ target) (kind : String)
    (sequence : ℤ) :
    Adds p (p.connect source target kind sequence) (fun _ => False)
      (fun first second label => first = source ∧ second = target ∧ label = kind) := by
  constructor
  · simp
  · intro key
    rw [mem_connect_edges]
    refine or_congr_right ?_
    constructor
    · exact fun isKey => ⟨source, target, kind, apart, ⟨rfl, rfl, rfl⟩, isKey⟩
    · rintro ⟨_, _, _, -, ⟨rfl, rfl, rfl⟩, isKey⟩
      exact isKey
  · intro key edge isEdge
    rcases lookup_connect p source target kind sequence isEdge with isBefore | isNew
    · exact .inl isBefore
    · rcases edge with ⟨_, _, _, _⟩
      cases isNew
      exact .inr ⟨apart, rfl, rfl, rfl⟩

theorem adds_connectApart (source target : NodeId) (kind : String) (sequence : ℤ) :
    Adds p (p.connectApart source target kind sequence) (fun _ => False)
      (fun first second label => first = source ∧ second = target ∧ label = kind) := by
  rw [Projection.connectApart]
  split
  · rename_i same
    constructor
    · simp
    · intro key
      refine (or_iff_left ?_).symm
      rintro ⟨_, _, _, apart, ⟨rfl, rfl, -⟩, -⟩
      exact apart same
    · exact fun key edge isEdge => .inl ⟨edge, isEdge, rfl⟩
  · rename_i apart
    exact adds_connect p apart kind sequence

theorem adds_contain (sessionId : SessionId) (e : Event) :
    Adds p (contain sessionId p e) (· = aggregateId e) (fun first second label =>
      first = sessionNodeId sessionId ∧ second = aggregateId e ∧ label = "contains") := by
  have ensured := adds_ensure p (aggregateId e) e.aggregate.kind e.aggregate.id e.sequence
  have adds := ensured.trans (adds_connectApart _ (sessionNodeId sessionId) (aggregateId e)
    "contains" e.sequence)
  exact (show Adds p (contain sessionId p e) _ _ from ⟨adds.nodes, adds.edges, adds.drawn⟩).congr
    (by simp) (by simp)

theorem adds_access {e : Event} (apart : e.actor.id ≠ "" → actorNodeId e.actor.id ≠ aggregateId e) :
    Adds p (access p e) (fun id => e.actor.id ≠ "" ∧ id = actorNodeId e.actor.id)
      (fun first second label => e.actor.id ≠ "" ∧ first = actorNodeId e.actor.id ∧
        second = aggregateId e ∧ label = "access") := by
  rw [access]
  split
  · rename_i isUnnamed
    exact (Adds.nothing (fun _ => Iff.rfl) rfl).congr (by simp [isUnnamed])
      (by simp [isUnnamed])
  · rename_i named
    exact ((adds_ensure p _ _ _ _).trans (adds_connect _ (apart named) "access" e.sequence)).congr
      (by simp [named]) (by simp [named])

theorem adds_cause (e : Event) :
    Adds p (cause p e) (fun _ => False) (fun first second label => e.causationId ≠ "" ∧
      p.byEventId.lookup e.causationId = some first ∧ second = aggregateId e ∧
        label = "causation") := by
  rw [cause]
  split
  · rename_i isUnnamed
    exact (Adds.nothing (fun _ => Iff.rfl) rfl).congr (by simp) (by simp [isUnnamed])
  · rename_i named
    cases isFirst : p.byEventId.lookup e.causationId with
    | none =>
        exact (Adds.nothing (fun _ => Iff.rfl) rfl).congr (by simp) (by simp)
    | some first =>
        exact (adds_connectApart p first (aggregateId e) "causation" e.sequence).congr (by simp)
          (by simp [named, eq_comm])

theorem adds_correlate (e : Event) :
    Adds p (correlate p e) (fun _ => False) (fun first second label => e.correlationId ≠ "" ∧
      p.firstByCorrelation.lookup e.correlationId = some first ∧ second = aggregateId e ∧
        label = "correlation") := by
  rw [correlate]
  split
  · rename_i isUnnamed
    exact (Adds.nothing (fun _ => Iff.rfl) rfl).congr (by simp) (by simp [isUnnamed])
  · rename_i named
    cases isFirst : p.firstByCorrelation.lookup e.correlationId with
    | none =>
        have same : Adds p { p with
            firstByCorrelation := p.firstByCorrelation.insert e.correlationId (aggregateId e) }
            (fun _ => False) (fun _ _ _ => False) := .nothing (fun _ => Iff.rfl) rfl
        exact same.congr (by simp) (by simp)
    | some first =>
        exact (adds_connectApart p first (aggregateId e) "correlation" e.sequence).congr (by simp)
          (by simp [named, eq_comm])

theorem adds_mention (e : Event) (key kind edge : String) :
    Adds p (mention p e key kind edge)
      (fun id => ∃ ref ∈ payloadString e.payload key, id = nodeIdFor kind ref)
      (fun first second label => ∃ ref ∈ payloadString e.payload key,
        first = aggregateId e ∧ second = nodeIdFor kind ref ∧ label = edge) := by
  rw [mention]
  cases payloadString e.payload key with
  | none =>
      exact (Adds.nothing (fun _ => Iff.rfl) rfl).congr (by simp) (by simp)
  | some ref =>
      exact ((adds_ensure p _ _ _ _).trans (adds_connectApart _ (aggregateId e)
        (nodeIdFor kind ref) edge e.sequence)).congr (by simp) (by simp)

/-! ### The lookups -/

@[simp]
theorem connect_lookups (source target : NodeId) (kind : String) (sequence : ℤ) :
    (p.connect source target kind sequence).byEventId = p.byEventId ∧
      (p.connect source target kind sequence).firstByCorrelation = p.firstByCorrelation := by
  simp only [Projection.connect]
  repeat' split
  all_goals exact ⟨rfl, rfl⟩

@[simp]
theorem connectApart_lookups (source target : NodeId) (kind : String) (sequence : ℤ) :
    (p.connectApart source target kind sequence).byEventId = p.byEventId ∧
      (p.connectApart source target kind sequence).firstByCorrelation = p.firstByCorrelation := by
  rw [Projection.connectApart]
  split <;> simp

@[simp]
theorem annotate_lookups (id : NodeId) (m : Compat.Metadata) :
    (p.annotate id m).byEventId = p.byEventId ∧
      (p.annotate id m).firstByCorrelation = p.firstByCorrelation := by
  rw [Projection.annotate]
  split <;> exact ⟨rfl, rfl⟩

@[simp]
theorem contain_lookups (sessionId : SessionId) (e : Event) :
    (contain sessionId p e).byEventId = p.byEventId.insert e.id (aggregateId e) ∧
      (contain sessionId p e).firstByCorrelation = p.firstByCorrelation := by
  simp [contain]

@[simp]
theorem access_lookups (e : Event) :
    (access p e).byEventId = p.byEventId ∧
      (access p e).firstByCorrelation = p.firstByCorrelation := by
  rw [access]
  split <;> simp

@[simp]
theorem cause_lookups (e : Event) :
    (cause p e).byEventId = p.byEventId ∧
      (cause p e).firstByCorrelation = p.firstByCorrelation := by
  rw [cause]
  repeat' split
  all_goals simp

@[simp]
theorem mention_lookups (e : Event) (key kind edge : String) :
    (mention p e key kind edge).byEventId = p.byEventId ∧
      (mention p e key kind edge).firstByCorrelation = p.firstByCorrelation := by
  rw [mention]
  split <;> simp

@[simp]
theorem correlate_byEventId (e : Event) : (correlate p e).byEventId = p.byEventId := by
  rw [correlate]
  repeat' split
  all_goals simp

/-- The first aggregate of a correlation is kept. -/
theorem lookup_correlate (e : Event) (key : String) :
    (correlate p e).firstByCorrelation.lookup key = (p.firstByCorrelation.lookup key).or
      (if key ≠ "" ∧ key = e.correlationId then some (aggregateId e) else none) := by
  rw [correlate]
  by_cases isUnnamed : e.correlationId = ""
  · rw [if_pos isUnnamed, isUnnamed]
    simp
  · rw [if_neg isUnnamed]
    cases isFirst : p.firstByCorrelation.lookup e.correlationId with
    | some first =>
        by_cases isKey : key = e.correlationId
        · rw [isKey, isFirst, Option.some_or]
          simp [isFirst]
        · simp [isKey]
    | none =>
        by_cases isKey : key = e.correlationId
        · subst isKey
          simp [isFirst, isUnnamed]
        · simp [isKey, AList.lookup_insert_ne isKey]

end Steps

/-! ## What a projection says -/

/-- A projection says just what the events say of which it is one. -/
structure Exact (sessionId : SessionId) (past : List Event) (p : Projection) : Prop where
  byEventId : ∀ key, p.byEventId.lookup key = (lastNamed past key).map aggregateId
  byCorrelation : ∀ key, key ≠ "" →
    p.firstByCorrelation.lookup key = (firstCorrelated past key).map aggregateId
  nodes : ∀ id, id ∈ p.nodes ↔ id = sessionNodeId sessionId ∨ ∃ e ∈ past, Mentions sessionId e id
  edges : ∀ key, key ∈ p.edges ↔ ∃ source target kind,
    Related sessionId past source target kind ∧ key = Projection.edgeKey source target kind
  drawn : ∀ key edge, p.edges.lookup key = some edge →
    Related sessionId past edge.source edge.target edge.kind

section Run

variable {sessionId : SessionId} {past rest : List Event} {e : Event} {p q : Projection}

theorem lastNamed_append (past : List Event) (e : Event) (key : String) :
    lastNamed (past ++ [e]) key = if e.id = key then some e else lastNamed past key := by
  rw [lastNamed, List.reverse_append, List.reverse_singleton, List.singleton_append,
    List.find?_cons]
  by_cases isKey : e.id = key <;> simp [isKey, lastNamed]

theorem firstCorrelated_append (past : List Event) (e : Event) (key : String) :
    firstCorrelated (past ++ [e]) key =
      (firstCorrelated past key).or (if e.correlationId = key then some e else none) := by
  rw [firstCorrelated, List.find?_append, List.find?_singleton]
  by_cases isKey : e.correlationId = key <;> simp [isKey, firstCorrelated]

theorem Exact.lookup_insert (exactly : Exact sessionId past p) (e : Event) (key : String) :
    (p.byEventId.insert e.id (aggregateId e)).lookup key =
      (lastNamed (past ++ [e]) key).map aggregateId := by
  rw [lastNamed_append]
  by_cases isKey : e.id = key
  · rw [if_pos isKey, ← isKey, AList.lookup_insert]
    rfl
  · rw [if_neg isKey, AList.lookup_insert_ne (Ne.symm isKey), exactly.byEventId]

theorem relates_iff {source target : NodeId} {kind : String} :
    Relates sessionId past e source target kind ↔
      (source = sessionNodeId sessionId ∧ target = aggregateId e ∧ kind = "contains") ∨
      (e.actor.id ≠ "" ∧ source = actorNodeId e.actor.id ∧ target = aggregateId e ∧
        kind = "access") ∨
      (e.causationId ≠ "" ∧ (lastNamed (past ++ [e]) e.causationId).map aggregateId = some source ∧
        target = aggregateId e ∧ kind = "causation") ∨
      (e.correlationId ≠ "" ∧ (firstCorrelated past e.correlationId).map aggregateId = some source ∧
        target = aggregateId e ∧ kind = "correlation") ∨
      (∃ ref ∈ payloadString e.payload "workPackageId",
        source = aggregateId e ∧ target = nodeIdFor "work_package" ref ∧ kind = "assigns") ∨
      ∃ ref ∈ payloadString e.payload "artifactId",
        source = aggregateId e ∧ target = nodeIdFor "artifact" ref ∧ kind = "produces" := by
  constructor
  · rintro (_ | named | ⟨named, isCause⟩ | ⟨named, isFirst⟩ | isRef | isRef)
    · exact .inl ⟨rfl, rfl, rfl⟩
    · exact .inr (.inl ⟨named, rfl, rfl, rfl⟩)
    · exact .inr (.inr (.inl ⟨named, by rw [isCause]; rfl, rfl, rfl⟩))
    · exact .inr (.inr (.inr (.inl ⟨named, by rw [isFirst]; rfl, rfl, rfl⟩)))
    · exact .inr (.inr (.inr (.inr (.inl ⟨_, isRef, rfl, rfl, rfl⟩))))
    · exact .inr (.inr (.inr (.inr (.inr ⟨_, isRef, rfl, rfl, rfl⟩))))
  · rintro (⟨rfl, rfl, rfl⟩ | ⟨named, rfl, rfl, rfl⟩ | ⟨named, isCause, rfl, rfl⟩ |
      ⟨named, isFirst, rfl, rfl⟩ | ⟨ref, isRef, rfl, rfl, rfl⟩ | ⟨ref, isRef, rfl, rfl, rfl⟩)
    · exact .contains
    · exact .access named
    · rcases Option.map_eq_some_iff.mp isCause with ⟨first, isLast, rfl⟩
      exact .causation named isLast
    · rcases Option.map_eq_some_iff.mp isFirst with ⟨first, isFound, rfl⟩
      exact .correlation named isFound
    · exact .assigns isRef
    · exact .produces isRef

theorem foldEvent_eq_ok (isAfter : foldEvent sessionId p e = .ok q) :
    ∃ noted, Adds (correlate (cause (access (contain sessionId p e) e) e) e) noted
        (fun _ => False) (fun _ _ _ => False) ∧
      noted.byEventId = (correlate (cause (access (contain sessionId p e) e) e) e).byEventId ∧
      noted.firstByCorrelation =
        (correlate (cause (access (contain sessionId p e) e) e) e).firstByCorrelation ∧
      q = mention (mention noted e "workPackageId" "work_package" "assigns") e "artifactId"
        "artifact" "produces" := by
  simp only [foldEvent] at isAfter
  split at isAfter
  · cases isAfter
  · rename_i metadata _
    cases isAfter
    refine ⟨_, ?_, ?_, ?_, rfl⟩
    · split
      · exact .nothing (fun _ => Iff.rfl) rfl
      · exact adds_annotate _ _ metadata
    · split <;> simp
    · split <;> simp

/-- An event adds what it mentions, and its relations. -/
theorem adds_foldEvent (exactly : Exact sessionId past p)
    (apart : e.actor.id ≠ "" → actorNodeId e.actor.id ≠ aggregateId e)
    (isAfter : foldEvent sessionId p e = .ok q) :
    Adds p q (Mentions sessionId e) (Relates sessionId past e) := by
  rcases foldEvent_eq_ok isAfter with ⟨noted, addsNothing, -, -, rfl⟩
  have adds := ((((((adds_contain p sessionId e).trans (adds_access _ apart)).trans
    (adds_cause _ e)).trans (adds_correlate _ e)).trans addsNothing).trans
    (adds_mention noted e "workPackageId" "work_package" "assigns")).trans
    (adds_mention _ e "artifactId" "artifact" "produces")
  have related : Adds p _ _ (Relates sessionId past e) :=
    adds.congr (fun _ => Iff.rfl) fun source target kind => by
      rw [relates_iff]
      simp only [cause_lookups, access_lookups, contain_lookups, exactly.lookup_insert, or_false,
        or_assoc]
      by_cases isUnnamed : e.correlationId = ""
      · simp [isUnnamed]
      · rw [exactly.byCorrelation _ isUnnamed]
  constructor
  · intro id
    rw [adds.nodes, Mentions]
    have hasSession : sessionNodeId sessionId ∈ p.nodes := (exactly.nodes _).mpr (.inl rfl)
    simp only [or_false, or_assoc]
    constructor
    · rintro (isThere | added)
      · exact .inl isThere
      · exact .inr (.inr added)
    · rintro (isThere | rfl | added)
      · exact .inl isThere
      · exact .inl hasSession
      · exact .inr added
  · exact related.edges
  · exact related.drawn

theorem exact_foldEvent (exactly : Exact sessionId past p)
    (apart : e.actor.id ≠ "" → actorNodeId e.actor.id ≠ aggregateId e)
    (isAfter : foldEvent sessionId p e = .ok q) : Exact sessionId (past ++ [e]) q := by
  have adds := adds_foldEvent exactly apart isAfter
  rcases foldEvent_eq_ok isAfter with ⟨noted, -, sameIds, sameCorrelations, rfl⟩
  constructor
  · intro key
    simp only [mention_lookups, sameIds, correlate_byEventId, cause_lookups, access_lookups,
      contain_lookups]
    exact exactly.lookup_insert e key
  · intro key named
    simp only [mention_lookups, sameCorrelations, lookup_correlate, cause_lookups, access_lookups,
      contain_lookups]
    rw [exactly.byCorrelation key named, firstCorrelated_append]
    by_cases isKey : key = e.correlationId
    · subst isKey
      cases firstCorrelated past e.correlationId <;> simp [named]
    · simp [isKey, Ne.symm isKey]
  · intro id
    rw [adds.nodes, exactly.nodes]
    simp [or_assoc, or_and_right, exists_or]
  · intro key
    rw [adds.edges, exactly.edges]
    constructor
    · rintro (⟨source, target, kind, related, isKey⟩ | ⟨source, target, kind, isApart, relates, isKey⟩)
      · exact ⟨source, target, kind, related_append.mpr (.inl related), isKey⟩
      · exact ⟨source, target, kind, related_append.mpr (.inr ⟨isApart, relates⟩), isKey⟩
    · rintro ⟨source, target, kind, related, isKey⟩
      rcases related_append.mp related with related | ⟨isApart, relates⟩
      · exact .inl ⟨source, target, kind, related, isKey⟩
      · exact .inr ⟨source, target, kind, isApart, relates, isKey⟩
  · intro key edge isEdge
    rcases adds.drawn key edge isEdge with ⟨before, isBefore, same⟩ | drawn
    · have related := exactly.drawn key before isBefore
      rcases edge with ⟨source, target, kind, sequence⟩
      cases same
      exact related_append.mpr (.inl related)
    · exact related_append.mpr (.inr drawn)

theorem exact_foldEvents (exactly : Exact sessionId past p) (apart : ActorsApart rest)
    (isAfter : rest.foldlM (foldEvent sessionId) p = .ok q) : Exact sessionId (past ++ rest) q := by
  induction rest generalizing past p with
  | nil =>
      cases isAfter
      rw [List.append_nil]
      exact exactly
  | cons e rest ih =>
      rw [List.foldlM_cons] at isAfter
      cases isStep : foldEvent sessionId p e with
      | error error =>
          rw [isStep] at isAfter
          cases isAfter
      | ok next =>
          rw [isStep] at isAfter
          have exactNext := exact_foldEvent exactly (apart e List.mem_cons_self) isStep
          have apartRest : ActorsApart rest := fun later isLater =>
            apart later (List.mem_cons_of_mem e isLater)
          have exactAll := ih exactNext apartRest isAfter
          rwa [List.append_assoc, List.singleton_append] at exactAll

theorem exact_of_projects {ordered : List Event} (isProjection : Projects sessionId ordered p)
    (apart : ActorsApart ordered) : Exact sessionId ordered p := by
  rcases isProjection with ⟨first, rest, rfl, isAfter⟩
  have adds := adds_ensure {} (sessionNodeId sessionId) "session" sessionId first.sequence
  have start : Exact sessionId [] (({} : Projection).ensure (sessionNodeId sessionId) "session"
      sessionId first.sequence) := by
    constructor
    · simp [lastNamed]
    · simp [firstCorrelated]
    · intro id
      rw [adds.nodes]
      simp
    · intro key
      rw [adds.edges]
      simp [Related]
    · simp
  exact exact_foldEvents start apart isAfter

end Run

/-! ## Keys of edges -/

/-- Texts without the separator of the keys of edges. -/
def Plain (text : String) : Prop := Char.ofNat 0 ∉ text.toList

theorem plain_of_identifier {value : String} (matching : V1.matchesIdentifier value = true) :
    Plain value := by
  intro isThere
  rw [V1.matchesIdentifier] at matching
  cases chars : value.toList with
  | nil =>
      rw [chars] at isThere
      cases isThere
  | cons first rest =>
      rw [chars] at matching isThere
      simp only [Bool.and_eq_true, List.all_eq_true] at matching
      rcases List.mem_cons.mp isThere with rfl | isLater
      · exact absurd matching.1 (by decide)
      · exact absurd (matching.2 _ isLater) (by decide)

/-- What follows the last separator determines the text on either side of it. -/
theorem append_separator_inj_last {separator : Char} {left right leftRest rightRest : String}
    (notLeft : separator ∉ leftRest.toList) (notRight : separator ∉ rightRest.toList)
    (same : left ++ String.ofList [separator] ++ leftRest =
      right ++ String.ofList [separator] ++ rightRest) : left = right ∧ leftRest = rightRest := by
  have chars := congrArg (fun text => text.toList.reverse) same
  simp only [String.toList_append, String.toList_ofList, List.reverse_append, List.reverse_cons,
    List.append_assoc, List.singleton_append] at chars
  have notLeftReverse : separator ∉ leftRest.toList.reverse := by simpa using notLeft
  have notRightReverse : separator ∉ rightRest.toList.reverse := by simpa using notRight
  rcases Go.append_cons_inj notLeftReverse notRightReverse chars with ⟨rests, lefts⟩
  exact ⟨String.toList_inj.mp (List.reverse_inj.mp lefts),
    String.toList_inj.mp (List.reverse_inj.mp rests)⟩

theorem identifier_of_validate {e : Event} (valid : e.validate = .ok ()) :
    V1.matchesIdentifier e.aggregate.id = true := by
  by_contra unmatched
  have fails : ∃ message, V1.requireIdentifier "aggregate.id" e.aggregate.id = .error message := by
    rw [V1.requireIdentifier]
    split
    · exact ⟨_, rfl⟩
    · rw [if_pos (.inr (by simpa using unmatched))]
      exact ⟨_, rfl⟩
  rcases fails with ⟨message, fails⟩
  rw [V1.Event.validate, fails] at valid
  simp only [bind, Except.bind, throw, throwThe, MonadExceptOf.throw] at valid
  repeat' split at valid
  all_goals cases valid

theorem plain_aggregateId {e : Event} (valid : e.validate = .ok ()) : Plain (aggregateId e) := by
  have kindPlain : ∀ kind ∈ ["project", "work_package", "assignment", "attempt", "artifact",
      "issue", "strategy", "memory", "tool", "workflow"], Char.ofNat 0 ∉ kind.toList := by decide
  have isKind := kindPlain _ (aggregate_kind_of_validate valid)
  have idPlain := plain_of_identifier (identifier_of_validate valid)
  rw [Plain, aggregateId, nodeIdFor, String.toList_append, String.toList_append]
  simp only [List.mem_append, not_or]
  exact ⟨⟨isKind, by decide⟩, idPlain⟩

section Keys

variable {sessionId : SessionId} {past ordered : List Event} {e : Event}
  {source target otherSource otherTarget : NodeId} {kind otherKind : String}

/-- The node of an aggregate is the target of a relation, or its source, depending on its kind. -/
theorem plain_of_relates (valid : e.validate = .ok ())
    (relates : Relates sessionId past e source target kind) :
    Plain kind ∧ (kind ∈ ["contains", "access", "causation", "correlation"] ∧ Plain target ∨
      kind ∈ ["assigns", "produces"] ∧ Plain source) := by
  have isPlain := plain_aggregateId valid
  cases relates
  all_goals refine ⟨by rw [Plain]; decide, ?_⟩
  case assigns => exact .inr ⟨by decide, isPlain⟩
  case produces => exact .inr ⟨by decide, isPlain⟩
  all_goals exact .inl ⟨by decide, isPlain⟩

theorem plain_of_related (valid : ∀ e ∈ ordered, e.validate = .ok ())
    (related : Related sessionId ordered source target kind) :
    Plain kind ∧ (kind ∈ ["contains", "access", "causation", "correlation"] ∧ Plain target ∨
      kind ∈ ["assigns", "produces"] ∧ Plain source) := by
  rcases related with ⟨-, past, e, rest, isSplit, relates⟩
  exact plain_of_relates (valid e (by simp [isSplit])) relates

/-- Relations of valid events have different keys. -/
theorem edgeKey_inj (valid : ∀ e ∈ ordered, e.validate = .ok ())
    (left : Related sessionId ordered source target kind)
    (right : Related sessionId ordered otherSource otherTarget otherKind)
    (same : Projection.edgeKey source target kind =
      Projection.edgeKey otherSource otherTarget otherKind) :
    source = otherSource ∧ target = otherTarget ∧ kind = otherKind := by
  rcases plain_of_related valid left with ⟨plainKind, plainEnds⟩
  rcases plain_of_related valid right with ⟨plainOther, plainOtherEnds⟩
  rcases append_separator_inj_last plainKind plainOther same with ⟨sameEnds, rfl⟩
  have exclusive : ∀ kind ∈ ["contains", "access", "causation", "correlation"],
      kind ∉ ["assigns", "produces"] := by decide
  rcases plainEnds with ⟨isTarget, plainTarget⟩ | ⟨isSource, plainSource⟩
  · rcases plainOtherEnds with ⟨-, plainOtherTarget⟩ | ⟨isSource, -⟩
    · rcases append_separator_inj_last plainTarget plainOtherTarget sameEnds with ⟨rfl, rfl⟩
      exact ⟨rfl, rfl, rfl⟩
    · exact absurd isSource (exclusive _ isTarget)
  · rcases plainOtherEnds with ⟨isTarget, -⟩ | ⟨-, plainOtherSource⟩
    · exact absurd isSource (exclusive _ isTarget)
    · rcases Go.append_separator_inj plainSource plainOtherSource sameEnds with ⟨rfl, rfl⟩
      exact ⟨rfl, rfl, rfl⟩

end Keys

/-! ## Projected graphs -/

section Project

variable {sessionId : SessionId} {events : List Event} {graph : Graph}

/-- The nodes of a graph are what the events mention. -/
theorem mem_nodes_iff (valid : ∀ e ∈ events, e.validate = .ok ())
    (isGraph : project sessionId events = .ok graph) (id : NodeId) :
    id ∈ graph.nodes.map (·.id) ↔ ∃ e ∈ events, Mentions sessionId e id := by
  rcases projects_of_project isGraph with ⟨p, isProjection, rfl⟩
  have apart : ActorsApart (orderedCopy events) := fun e isEvent =>
    actorsApart_of_valid valid e (mem_sortBy.mp isEvent)
  rcases sound_of_all isProjection (sortBy_sorted events) apart with ⟨_, sound⟩
  have exactly := exact_of_projects isProjection apart
  constructor
  · intro isNode
    rcases List.mem_map.mp isNode with ⟨node, isThere, rfl⟩
    have isHeld := (mem_sortedNodes sound.keyed).mp isThere
    rcases (sound.least _ node isHeld).1 with ⟨e, isEvent, mentions, -⟩
    exact ⟨e, mem_sortBy.mp isEvent, mentions⟩
  · rintro ⟨e, isEvent, mentions⟩
    have isThere := sound.mentioned e (mem_sortBy.mpr isEvent) id mentions
    exact mem_ids_of_mem sound.keyed isThere

/-- The edges of a graph are the relations of the events, in the order of their sequences. -/
theorem mem_edges_iff (valid : ∀ e ∈ events, e.validate = .ok ())
    (isGraph : project sessionId events = .ok graph) (source target : NodeId) (kind : String) :
    (source, target, kind) ∈ graph.edges.map ends ↔
      Related sessionId (orderedCopy events) source target kind := by
  rcases projects_of_project isGraph with ⟨p, isProjection, rfl⟩
  have validOrdered : ∀ e ∈ orderedCopy events, e.validate = .ok () := fun e isEvent =>
    valid e (mem_sortBy.mp isEvent)
  have apart := actorsApart_of_valid validOrdered
  rcases sound_of_all isProjection (sortBy_sorted events) apart with ⟨_, sound⟩
  have exactly := exact_of_projects isProjection apart
  constructor
  · intro isEdge
    rcases List.mem_map.mp isEdge with ⟨edge, isThere, isEnds⟩
    have related := exactly.drawn _ edge ((mem_sortedEdges sound.edgeKeyed).mp isThere)
    rcases edge with ⟨_, _, _, _⟩
    cases isEnds
    exact related
  · intro related
    have isKey := (exactly.edges _).mpr ⟨source, target, kind, related, rfl⟩
    rcases Option.isSome_iff_exists.mp (AList.lookup_isSome.mpr isKey) with ⟨edge, isHeld⟩
    have sameKey := sound.edgeKeyed _ edge isHeld
    have drawn := exactly.drawn _ edge isHeld
    rcases edgeKey_inj validOrdered related drawn sameKey with ⟨rfl, rfl, rfl⟩
    exact List.mem_map_of_mem ((mem_sortedEdges sound.edgeKeyed).mpr isHeld)

end Project

end Aa.Visualizer.Session
