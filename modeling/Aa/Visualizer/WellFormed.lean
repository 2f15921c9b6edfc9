import Aa.Visualizer.Replay

/-!
# Projected graphs are well-formed

What holds of a projection while events are folded into it in the order of their sequences: its
nodes have the sequence of the first event that mentions them, and its edges run between
different nodes that are there. What is there stays.
-/

namespace Aa.Visualizer.Session

open Aa.Library Aa.Contracts

/-- An event mentions the session, its aggregate, its actor and what its payload names. -/
def Mentions (sessionId : SessionId) (e : Event) (id : NodeId) : Prop :=
  id = sessionNodeId sessionId ∨ id = aggregateId e ∨
    (e.actor.id ≠ "" ∧ id = actorNodeId e.actor.id) ∨
    (∃ ref ∈ payloadString e.payload "workPackageId", id = nodeIdFor "work_package" ref) ∨
    ∃ ref ∈ payloadString e.payload "artifactId", id = nodeIdFor "artifact" ref

/-- A node has the least of the sequences of the events that mention it. -/
def Least (sessionId : SessionId) (events : List Event) (id : NodeId) (sequence : ℤ) : Prop :=
  (∃ e ∈ events, Mentions sessionId e id ∧ e.sequence = sequence) ∧
    ∀ e ∈ events, Mentions sessionId e id → sequence ≤ e.sequence

/-- The ends and the kind of an edge. -/
def ends (edge : Edge) : NodeId × NodeId × String := (edge.source, edge.target, edge.kind)

/-- A graph that names its nodes and edges apart, joins different nodes that are there, and says
of each node when it was first mentioned. -/
structure WellFormed (sessionId : SessionId) (events : List Event) (g : Graph) : Prop where
  nodes : (g.nodes.map (·.id)).Nodup
  endpoints : ∀ edge ∈ g.edges,
    edge.source ∈ g.nodes.map (·.id) ∧ edge.target ∈ g.nodes.map (·.id)
  apart : ∀ edge ∈ g.edges, edge.source ≠ edge.target
  edges : (g.edges.map ends).Nodup
  least : ∀ node ∈ g.nodes, Least sessionId events node.id node.sequence

/-! ## The invariant -/

/-- An event has no later sequence than another. -/
abbrev InOrder (first second : Event) : Prop := first.sequence ≤ second.sequence

/-- The actors of events are not the aggregates they act on. -/
def ActorsApart (events : List Event) : Prop :=
  ∀ e ∈ events, e.actor.id ≠ "" → actorNodeId e.actor.id ≠ aggregateId e

/-- The projection of `past`, of a list of events that starts with it, up to a sequence. -/
structure Sound (sessionId : SessionId) (events past : List Event) (now : ℤ) (p : Projection) :
    Prop where
  keyed : ∀ id node, p.nodes.lookup id = some node → node.id = id
  least : ∀ id node, p.nodes.lookup id = some node → Least sessionId events id node.sequence
  mentioned : ∀ e ∈ past, ∀ id, Mentions sessionId e id → id ∈ p.nodes
  edgeKeyed : ∀ key edge, p.edges.lookup key = some edge →
    key = Projection.edgeKey edge.source edge.target edge.kind
  apart : ∀ key edge, p.edges.lookup key = some edge → edge.source ≠ edge.target
  endpoints : ∀ key edge, p.edges.lookup key = some edge →
    edge.source ∈ p.nodes ∧ edge.target ∈ p.nodes
  earlier : ∀ key edge, p.edges.lookup key = some edge → edge.sequence ≤ now
  byEventId : ∀ key id, p.byEventId.lookup key = some id → id ∈ p.nodes
  byCorrelation : ∀ key id, p.firstByCorrelation.lookup key = some id → id ∈ p.nodes

/-- The nodes and edges of a projection are in a later one, but for the metadata of nodes. -/
structure Persists (p q : Projection) : Prop where
  nodes : ∀ id node, p.nodes.lookup id = some node →
    ∃ metadata, q.nodes.lookup id = some { node with metadata := metadata }
  edges : ∀ key edge, p.edges.lookup key = some edge → q.edges.lookup key = some edge

namespace Persists

variable {p q r : Projection}

theorem refl (p : Projection) : Persists p p :=
  ⟨fun _ node isNode => ⟨node.metadata, isNode⟩, fun _ _ isEdge => isEdge⟩

theorem trans (first : Persists p q) (second : Persists q r) : Persists p r := by
  refine ⟨?_, fun key edge isEdge => second.edges key edge (first.edges key edge isEdge)⟩
  intro id node isNode
  rcases first.nodes id node isNode with ⟨metadata, isKept⟩
  exact second.nodes id { node with metadata := metadata } isKept

theorem mem (persists : Persists p q) {id : NodeId} (isThere : id ∈ p.nodes) : id ∈ q.nodes := by
  rcases Option.isSome_iff_exists.mp (AList.lookup_isSome.mpr isThere) with ⟨node, isNode⟩
  rcases persists.nodes id node isNode with ⟨metadata, isKept⟩
  rw [← AList.lookup_isSome, isKept]
  rfl

end Persists

/-- A step that keeps the invariant and what is there. -/
structure Advances (sessionId : SessionId) (events past : List Event) (now : ℤ)
    (p q : Projection) : Prop where
  sound : Sound sessionId events past now q
  persists : Persists p q

section Steps

variable {sessionId : SessionId} {events past rest : List Event} {now : ℤ} {e : Event}
  {p q r : Projection}

theorem Advances.trans (first : Advances sessionId events past now p q)
    (second : Advances sessionId events past now q r) : Advances sessionId events past now p r :=
  ⟨second.sound, first.persists.trans second.persists⟩

theorem Sound.refl (sound : Sound sessionId events past now p) :
    Advances sessionId events past now p p :=
  ⟨sound, .refl p⟩

/-! ### Nodes -/

theorem lookup_ensure (p : Projection) (id : NodeId) (kind ref : String) (sequence : ℤ)
    (other : NodeId) :
    (p.ensure id kind ref sequence).nodes.lookup other = (p.nodes.lookup other).or
      (if other = id then some ⟨id, kind, ref, ref, sequence, ∅⟩ else none) := by
  rw [Projection.ensure]
  by_cases isId : other = id
  · subst isId
    cases isNode : p.nodes.lookup other with
    | none => simp
    | some node => simp [isNode]
  · cases p.nodes.lookup id with
    | none => simp [isId, AList.lookup_insert_ne isId]
    | some node => simp [isId]

@[simp] theorem ensure_edges (p : Projection) (id : NodeId) (kind ref : String) (sequence : ℤ) :
    (p.ensure id kind ref sequence).edges = p.edges := by
  rw [Projection.ensure]
  split <;> rfl

@[simp] theorem ensure_byEventId (p : Projection) (id : NodeId) (kind ref : String)
    (sequence : ℤ) : (p.ensure id kind ref sequence).byEventId = p.byEventId := by
  rw [Projection.ensure]
  split <;> rfl

@[simp] theorem ensure_firstByCorrelation (p : Projection) (id : NodeId) (kind ref : String)
    (sequence : ℤ) :
    (p.ensure id kind ref sequence).firstByCorrelation = p.firstByCorrelation := by
  rw [Projection.ensure]
  split <;> rfl

theorem mem_ensure (p : Projection) (id : NodeId) (kind ref : String) (sequence : ℤ) :
    id ∈ (p.ensure id kind ref sequence).nodes := by
  rw [← AList.lookup_isSome, lookup_ensure]
  simp

theorem persists_ensure (p : Projection) (id : NodeId) (kind ref : String) (sequence : ℤ) :
    Persists p (p.ensure id kind ref sequence) := by
  refine ⟨?_, fun key edge isEdge => by rwa [ensure_edges]⟩
  intro other node isNode
  exact ⟨node.metadata, by rw [lookup_ensure, isNode, Option.some_or]⟩

/-- A node that an event adds was not mentioned before. -/
theorem advances_ensure (sound : Sound sessionId events past e.sequence p)
    (isSplit : events = past ++ e :: rest)
    (sorted : events.Pairwise InOrder)
    {id : NodeId} (mentions : Mentions sessionId e id) (kind ref : String) :
    Advances sessionId events past e.sequence p (p.ensure id kind ref e.sequence) := by
  have persists := persists_ensure p id kind ref e.sequence
  refine ⟨?_, persists⟩
  have ofLookup : ∀ other node,
      (p.ensure id kind ref e.sequence).nodes.lookup other = some node →
        p.nodes.lookup other = some node ∨
          (id ∉ p.nodes ∧ other = id ∧ node.id = id ∧ node.sequence = e.sequence) := by
    intro other node isNode
    rw [lookup_ensure, Option.or_eq_some_iff] at isNode
    rcases isNode with isNode | ⟨isNew, isNode⟩
    · exact .inl isNode
    · split_ifs at isNode with isId
      subst isId
      cases isNode
      exact .inr ⟨AList.lookup_eq_none.mp isNew, rfl, rfl, rfl⟩
  exact
    { keyed := by
        intro other node isNode
        rcases ofLookup other node isNode with isNode | ⟨-, rfl, isId, -⟩
        · exact sound.keyed other node isNode
        · exact isId
      least := by
        intro other node isNode
        rcases ofLookup other node isNode with isNode | ⟨isNew, rfl, -, isSequence⟩
        · exact sound.least other node isNode
        · rw [isSequence]
          refine ⟨⟨e, by simp [isSplit], mentions, rfl⟩, ?_⟩
          intro later isEvent mentionsLater
          rw [isSplit] at isEvent sorted
          rcases List.mem_append.mp isEvent with isPast | isLater
          · exact absurd (sound.mentioned later isPast _ mentionsLater) isNew
          · rcases List.mem_cons.mp isLater with rfl | isLater
            · exact le_rfl
            · have afterPast := (List.pairwise_append.mp sorted).2.1
              exact (List.pairwise_cons.mp afterPast).1 later isLater
      mentioned := fun earlier isPast other mentionsOther =>
        persists.mem (sound.mentioned earlier isPast other mentionsOther)
      edgeKeyed := by
        simp only [ensure_edges]
        exact sound.edgeKeyed
      apart := by
        simp only [ensure_edges]
        exact sound.apart
      endpoints := by
        simp only [ensure_edges]
        intro key edge isEdge
        rcases sound.endpoints key edge isEdge with ⟨source, target⟩
        exact ⟨persists.mem source, persists.mem target⟩
      earlier := by
        simp only [ensure_edges]
        exact sound.earlier
      byEventId := by
        simp only [ensure_byEventId]
        exact fun key other isOther => persists.mem (sound.byEventId key other isOther)
      byCorrelation := by
        simp only [ensure_firstByCorrelation]
        exact fun key other isOther => persists.mem (sound.byCorrelation key other isOther) }

/-- Annotating a node leaves its identity and sequence. -/
theorem advances_annotate (sound : Sound sessionId events past now p) (id : NodeId)
    (m : Compat.Metadata) : Advances sessionId events past now p (p.annotate id m) := by
  rw [Projection.annotate]
  cases isNode : p.nodes.lookup id with
  | none => exact sound.refl
  | some n =>
      simp only
      generalize isNoted : ({ n with metadata := Projection.annotated n.metadata m } : Node) = noted
      have sameId : noted.id = n.id := by rw [← isNoted]
      have sameSequence : noted.sequence = n.sequence := by rw [← isNoted]
      have mem_iff : ∀ other, other ∈ p.nodes.insert id noted ↔ other ∈ p.nodes := by
        intro other
        rw [AList.mem_insert]
        constructor
        · rintro (rfl | isThere)
          · rw [← AList.lookup_isSome, isNode]
            rfl
          · exact isThere
        · exact .inr
      have ofLookup : ∀ other node, (p.nodes.insert id noted).lookup other = some node →
          ∃ before, p.nodes.lookup other = some before ∧ node.id = before.id ∧
            node.sequence = before.sequence := by
        intro other node isOther
        by_cases isId : other = id
        · subst isId
          rw [AList.lookup_insert, Option.some.injEq] at isOther
          exact ⟨n, isNode, by rw [← isOther, sameId], by rw [← isOther, sameSequence]⟩
        · rw [AList.lookup_insert_ne isId] at isOther
          exact ⟨node, isOther, rfl, rfl⟩
      constructor
      · exact
          { keyed := by
              intro other node isOther
              rcases ofLookup other node isOther with ⟨before, isBefore, same, -⟩
              rw [same]
              exact sound.keyed other before isBefore
            least := by
              intro other node isOther
              rcases ofLookup other node isOther with ⟨before, isBefore, -, same⟩
              rw [same]
              exact sound.least other before isBefore
            mentioned := fun earlier isPast other mentions =>
              (mem_iff other).mpr (sound.mentioned earlier isPast other mentions)
            edgeKeyed := sound.edgeKeyed
            apart := sound.apart
            endpoints := fun key edge isEdge =>
              ⟨(mem_iff _).mpr (sound.endpoints key edge isEdge).1,
                (mem_iff _).mpr (sound.endpoints key edge isEdge).2⟩
            earlier := sound.earlier
            byEventId := fun key other isOther =>
              (mem_iff other).mpr (sound.byEventId key other isOther)
            byCorrelation := fun key other isOther =>
              (mem_iff other).mpr (sound.byCorrelation key other isOther) }
      · refine ⟨?_, fun _ _ isEdge => isEdge⟩
        intro other node isOther
        by_cases isId : other = id
        · subst isId
          rw [isNode, Option.some.injEq] at isOther
          rw [AList.lookup_insert, ← isNoted, isOther]
          exact ⟨_, rfl⟩
        · exact ⟨node.metadata, by rw [AList.lookup_insert_ne isId, isOther]⟩

/-! ### Edges -/

/-- An edge between nodes that are there is added, unless it is there with an earlier sequence. -/
theorem advances_connect (sound : Sound sessionId events past now p) {source target : NodeId}
    (apart : source ≠ target) (hasSource : source ∈ p.nodes) (hasTarget : target ∈ p.nodes)
    (kind : String) : Advances sessionId events past now p (p.connect source target kind now) := by
  rw [Projection.connect]
  cases isHeld : p.edges.lookup (Projection.edgeKey source target kind) with
  | some existing =>
      simp only [if_neg (not_lt.mpr (sound.earlier _ existing isHeld))]
      exact sound.refl
  | none =>
      simp only
      have ofLookup : ∀ key edge, (p.edges.insert (Projection.edgeKey source target kind)
          ⟨source, target, kind, now⟩).lookup key = some edge → p.edges.lookup key = some edge ∨
            (key = Projection.edgeKey source target kind ∧ edge = ⟨source, target, kind, now⟩) := by
        intro key edge isEdge
        by_cases isKey : key = Projection.edgeKey source target kind
        · subst isKey
          rw [AList.lookup_insert, Option.some.injEq] at isEdge
          exact .inr ⟨rfl, isEdge.symm⟩
        · rw [AList.lookup_insert_ne isKey] at isEdge
          exact .inl isEdge
      constructor
      · exact
          { keyed := sound.keyed
            least := sound.least
            mentioned := sound.mentioned
            edgeKeyed := by
              intro key edge isEdge
              rcases ofLookup key edge isEdge with isEdge | ⟨isKey, rfl⟩
              · exact sound.edgeKeyed key edge isEdge
              · exact isKey
            apart := by
              intro key edge isEdge
              rcases ofLookup key edge isEdge with isEdge | ⟨-, rfl⟩
              · exact sound.apart key edge isEdge
              · exact apart
            endpoints := by
              intro key edge isEdge
              rcases ofLookup key edge isEdge with isEdge | ⟨-, rfl⟩
              · exact sound.endpoints key edge isEdge
              · exact ⟨hasSource, hasTarget⟩
            earlier := by
              intro key edge isEdge
              rcases ofLookup key edge isEdge with isEdge | ⟨-, rfl⟩
              · exact sound.earlier key edge isEdge
              · exact le_rfl
            byEventId := sound.byEventId
            byCorrelation := sound.byCorrelation }
      · refine ⟨fun _ node isNode => ⟨node.metadata, isNode⟩, ?_⟩
        intro key edge isEdge
        have isOther : key ≠ Projection.edgeKey source target kind := by
          rintro rfl
          cases isHeld.symm.trans isEdge
        rw [AList.lookup_insert_ne isOther, isEdge]

theorem advances_connectApart (sound : Sound sessionId events past now p) {source target : NodeId}
    (hasSource : source ∈ p.nodes) (hasTarget : target ∈ p.nodes) (kind : String) :
    Advances sessionId events past now p (p.connectApart source target kind now) := by
  rw [Projection.connectApart]
  split
  · exact sound.refl
  · rename_i apart
    exact advances_connect sound apart hasSource hasTarget kind

/-! ### The lookups -/

theorem advances_byEventId (sound : Sound sessionId events past now p) (key : String)
    {id : NodeId} (isThere : id ∈ p.nodes) :
    Advances sessionId events past now p { p with byEventId := p.byEventId.insert key id } := by
  refine ⟨{ sound with byEventId := ?_ }, fun _ node isNode => ⟨node.metadata, isNode⟩,
    fun _ _ isEdge => isEdge⟩
  intro other found isFound
  by_cases isKey : other = key
  · subst isKey
    rw [AList.lookup_insert, Option.some.injEq] at isFound
    rwa [← isFound]
  · rw [AList.lookup_insert_ne isKey] at isFound
    exact sound.byEventId other found isFound

theorem advances_byCorrelation (sound : Sound sessionId events past now p) (key : String)
    {id : NodeId} (isThere : id ∈ p.nodes) :
    Advances sessionId events past now p
      { p with firstByCorrelation := p.firstByCorrelation.insert key id } := by
  refine ⟨{ sound with byCorrelation := ?_ }, fun _ node isNode => ⟨node.metadata, isNode⟩,
    fun _ _ isEdge => isEdge⟩
  intro other found isFound
  by_cases isKey : other = key
  · subst isKey
    rw [AList.lookup_insert, Option.some.injEq] at isFound
    rwa [← isFound]
  · rw [AList.lookup_insert_ne isKey] at isFound
    exact sound.byCorrelation other found isFound

/-! ### One event -/

theorem Sound.later {next : ℤ} (sound : Sound sessionId events past now p) (isLater : now ≤ next) :
    Sound sessionId events past next p :=
  { sound with earlier := fun key edge isEdge => (sound.earlier key edge isEdge).trans isLater }

/-- An event is past once everything it mentions is there. -/
theorem Sound.pass (sound : Sound sessionId events past now p)
    (mentioned : ∀ id, Mentions sessionId e id → id ∈ p.nodes) :
    Sound sessionId events (past ++ [e]) now p := by
  refine { sound with mentioned := ?_ }
  intro earlier isPast id mentions
  rcases List.mem_append.mp isPast with isPast | isLast
  · exact sound.mentioned earlier isPast id mentions
  · rw [List.mem_singleton] at isLast
    subst isLast
    exact mentioned id mentions

section Event

variable (sound : Sound sessionId events past e.sequence p) (isSplit : events = past ++ e :: rest)
  (sorted : events.Pairwise InOrder)

include sound isSplit sorted

theorem advances_contain (hasSession : sessionNodeId sessionId ∈ p.nodes) :
    Advances sessionId events past e.sequence p (contain sessionId p e) ∧
      aggregateId e ∈ (contain sessionId p e).nodes := by
  have mentions : Mentions sessionId e (aggregateId e) := .inr (.inl rfl)
  have ensured := advances_ensure sound isSplit sorted mentions e.aggregate.kind e.aggregate.id
  have hasAggregate := mem_ensure p (aggregateId e) e.aggregate.kind e.aggregate.id e.sequence
  have connected := advances_connectApart ensured.sound (ensured.persists.mem hasSession)
    hasAggregate "contains"
  have isThere := connected.persists.mem hasAggregate
  exact ⟨(ensured.trans connected).trans (advances_byEventId connected.sound e.id isThere), isThere⟩

/-- The actor accesses the aggregate, which it never is. -/
theorem advances_access (apart : ActorsApart events) (hasAggregate : aggregateId e ∈ p.nodes) :
    Advances sessionId events past e.sequence p (access p e) ∧
      (e.actor.id ≠ "" → actorNodeId e.actor.id ∈ (access p e).nodes) := by
  rw [access]
  split
  · rename_i isUnnamed
    exact ⟨sound.refl, fun named => absurd isUnnamed named⟩
  · rename_i named
    have isEvent : e ∈ events := by simp [isSplit]
    have mentions : Mentions sessionId e (actorNodeId e.actor.id) := .inr (.inr (.inl ⟨named, rfl⟩))
    have ensured := advances_ensure sound isSplit sorted mentions "actor" e.actor.id
    have hasActor := mem_ensure p (actorNodeId e.actor.id) "actor" e.actor.id e.sequence
    have connected := advances_connect ensured.sound (apart e isEvent named) hasActor
      (ensured.persists.mem hasAggregate) "access"
    exact ⟨ensured.trans connected, fun _ => connected.persists.mem hasActor⟩

theorem advances_mention (hasAggregate : aggregateId e ∈ p.nodes) {key kind : String}
    (edge : String)
    (mentions : ∀ ref ∈ payloadString e.payload key, Mentions sessionId e (nodeIdFor kind ref)) :
    Advances sessionId events past e.sequence p (mention p e key kind edge) ∧
      ∀ ref ∈ payloadString e.payload key, nodeIdFor kind ref ∈ (mention p e key kind edge).nodes := by
  rw [mention]
  cases isNamed : payloadString e.payload key with
  | none => exact ⟨sound.refl, fun _ isRef => (by cases isRef)⟩
  | some ref =>
      have ensured := advances_ensure sound isSplit sorted (mentions ref isNamed) kind ref
      have hasRef := mem_ensure p (nodeIdFor kind ref) kind ref e.sequence
      have connected := advances_connectApart ensured.sound (ensured.persists.mem hasAggregate)
        hasRef edge
      refine ⟨ensured.trans connected, ?_⟩
      intro other isOther
      cases isOther
      exact connected.persists.mem hasRef

end Event

theorem advances_cause (sound : Sound sessionId events past e.sequence p)
    (hasAggregate : aggregateId e ∈ p.nodes) :
    Advances sessionId events past e.sequence p (cause p e) := by
  rw [cause]
  split
  · exact sound.refl
  · cases isFirst : p.byEventId.lookup e.causationId with
    | none => exact sound.refl
    | some first =>
        exact advances_connectApart sound (sound.byEventId _ first isFirst) hasAggregate "causation"

theorem advances_correlate (sound : Sound sessionId events past e.sequence p)
    (hasAggregate : aggregateId e ∈ p.nodes) :
    Advances sessionId events past e.sequence p (correlate p e) := by
  rw [correlate]
  split
  · exact sound.refl
  · cases isFirst : p.firstByCorrelation.lookup e.correlationId with
    | none => exact advances_byCorrelation sound e.correlationId hasAggregate
    | some first =>
        exact advances_connectApart sound (sound.byCorrelation _ first isFirst) hasAggregate
          "correlation"

/-- An event keeps the invariant, and what it mentions is there afterwards. -/
theorem advances_foldEvent (sound : Sound sessionId events past e.sequence p)
    (isSplit : events = past ++ e :: rest)
    (sorted : events.Pairwise InOrder)
    (apart : ActorsApart events) (hasSession : sessionNodeId sessionId ∈ p.nodes)
    (isAfter : foldEvent sessionId p e = .ok q) :
    Advances sessionId events past e.sequence p q ∧
      ∀ id, Mentions sessionId e id → id ∈ q.nodes := by
  rcases advances_contain sound isSplit sorted hasSession with ⟨contained, hasAggregate⟩
  rcases advances_access contained.sound isSplit sorted apart hasAggregate with
    ⟨accessed, hasActor⟩
  have caused := advances_cause accessed.sound (accessed.persists.mem hasAggregate)
  have correlated := advances_correlate caused.sound
    (caused.persists.mem (accessed.persists.mem hasAggregate))
  have sinceAccess := caused.trans correlated
  simp only [foldEvent] at isAfter
  cases isNormal : Compat.normalize e with
  | error error =>
      rw [isNormal] at isAfter
      cases isAfter
  | ok metadata =>
      rw [isNormal] at isAfter
      simp only [Except.ok.injEq] at isAfter
      generalize isCorrelated : correlate (cause (access (contain sessionId p e) e) e) e = before
        at isAfter correlated sinceAccess
      have noted : Advances sessionId events past e.sequence before
          (if metadata.isEmpty then before else before.annotate (aggregateId e) metadata) := by
        split
        · exact correlated.sound.refl
        · exact advances_annotate correlated.sound _ metadata
      have sinceContain := sinceAccess.trans noted
      have aggregateThere := sinceContain.persists.mem (accessed.persists.mem hasAggregate)
      rcases advances_mention noted.sound isSplit sorted aggregateThere "assigns"
        (fun ref isRef => .inr (.inr (.inr (.inl ⟨ref, isRef, rfl⟩)))) with ⟨assigned, hasPackage⟩
      rcases advances_mention assigned.sound isSplit sorted
        (assigned.persists.mem aggregateThere) "produces"
        (fun ref isRef => .inr (.inr (.inr (.inr ⟨ref, isRef, rfl⟩)))) with ⟨produced, hasArtifact⟩
      rw [isAfter] at produced hasArtifact
      have sinceNoted := assigned.trans produced
      have whole := (contained.trans accessed).trans (sinceContain.trans sinceNoted)
      refine ⟨whole, ?_⟩
      rintro id (rfl | rfl | ⟨named, rfl⟩ | ⟨ref, isRef, rfl⟩ | ⟨ref, isRef, rfl⟩)
      · exact whole.persists.mem hasSession
      · exact sinceNoted.persists.mem aggregateThere
      · exact sinceNoted.persists.mem (sinceContain.persists.mem (hasActor named))
      · exact produced.persists.mem (hasPackage ref isRef)
      · exact hasArtifact ref isRef

/-- Folding more of the events keeps the invariant. -/
theorem sound_foldEvents {more : List Event} (sound : Sound sessionId events past now p)
    (isSplit : events = past ++ rest ++ more)
    (sorted : events.Pairwise InOrder)
    (apart : ActorsApart events) (hasSession : sessionNodeId sessionId ∈ p.nodes)
    (reached : ∀ e ∈ rest ++ more, now ≤ e.sequence)
    (isAfter : rest.foldlM (foldEvent sessionId) p = .ok q) :
    ∃ last, Sound sessionId events (past ++ rest) last q ∧ (∀ e ∈ more, last ≤ e.sequence) ∧
      Persists p q := by
  induction rest generalizing past now p with
  | nil =>
      cases isAfter
      rw [List.append_nil]
      exact ⟨now, sound, reached, .refl _⟩
  | cons e rest ih =>
      rw [List.foldlM_cons] at isAfter
      cases isStep : foldEvent sessionId p e with
      | error error =>
          rw [isStep] at isAfter
          cases isAfter
      | ok next =>
          rw [isStep] at isAfter
          have soundNow := sound.later (reached e List.mem_cons_self)
          have isNext : events = past ++ e :: (rest ++ more) := by simp [isSplit]
          rcases advances_foldEvent soundNow isNext sorted apart hasSession isStep with
            ⟨advances, mentioned⟩
          have again : events = (past ++ [e]) ++ rest ++ more := by simp [isSplit]
          have ahead : ∀ later ∈ rest ++ more, e.sequence ≤ later.sequence := by
            rw [isNext] at sorted
            exact (List.pairwise_cons.mp (List.pairwise_append.mp sorted).2.1).1
          rcases ih (advances.sound.pass mentioned) again (advances.persists.mem hasSession) ahead
            isAfter with ⟨last, soundLast, isReached, persists⟩
          rw [List.append_assoc, List.singleton_append] at soundLast
          exact ⟨last, soundLast, isReached, advances.persists.trans persists⟩

/-- The projection that holds only the session, with the sequence of the first event. -/
theorem sound_start (sessionId : SessionId) {first : Event}
    (sorted : (first :: rest).Pairwise InOrder) :
    Sound sessionId (first :: rest) [] first.sequence
      (({} : Projection).ensure (sessionNodeId sessionId) "session" sessionId first.sequence) := by
  have nothing : Sound sessionId (first :: rest) [] first.sequence {} := by
    constructor <;> intros <;> simp_all [AList.lookup_empty]
  exact (advances_ensure nothing rfl sorted (.inl rfl) "session" sessionId).sound

end Steps

/-! ## Projected graphs -/

section Project

variable {sessionId : SessionId} {events rest : List Event} {first : Event} {p q : Projection}

/-- The projection of the events of a session, in the order of their sequences. -/
def Projects (sessionId : SessionId) (ordered : List Event) (p : Projection) : Prop :=
  ∃ first rest, ordered = first :: rest ∧
    ordered.foldlM (foldEvent sessionId) (({} : Projection).ensure (sessionNodeId sessionId)
      "session" sessionId first.sequence) = .ok p

theorem projects_of_project {graph : Graph} (isGraph : project sessionId events = .ok graph) :
    ∃ p, Projects sessionId (orderedCopy events) p ∧
      graph = { sessionId := sessionId, nodes := p.sortedNodes, edges := p.sortedEdges } := by
  rw [project] at isGraph
  split at isGraph
  · cases isGraph
  · cases isOrdered : orderedCopy events with
    | nil =>
        rw [isOrdered] at isGraph
        cases isGraph
    | cons first rest =>
        rw [isOrdered] at isGraph
        simp only at isGraph
        split at isGraph
        · cases isGraph
        · rename_i p isProjection
          cases isGraph
          exact ⟨p, ⟨first, rest, rfl, isProjection⟩, rfl⟩

theorem sound_of_projects {more : List Event} (isProjection : Projects sessionId events p)
    (sorted : (events ++ more).Pairwise InOrder)
    (apart : ActorsApart (events ++ more)) :
    ∃ last, Sound sessionId (events ++ more) events last p ∧ ∀ e ∈ more, last ≤ e.sequence := by
  rcases isProjection with ⟨first, rest, rfl, isAfter⟩
  have reached : ∀ e ∈ (first :: rest) ++ more, first.sequence ≤ e.sequence := by
    intro e isEvent
    rcases List.mem_cons.mp isEvent with rfl | isLater
    · exact le_rfl
    · exact (List.pairwise_cons.mp sorted).1 e isLater
  rcases sound_foldEvents (sound_start sessionId sorted) rfl sorted apart (mem_ensure _ _ _ _ _)
    reached isAfter with ⟨last, sound, isReached, -⟩
  exact ⟨last, sound, isReached⟩

/-- What events project to stays when more events follow. -/
theorem persists_of_projects {more : List Event} (isProjection : Projects sessionId events p)
    (isLater : Projects sessionId (events ++ more) q)
    (sorted : (events ++ more).Pairwise InOrder)
    (apart : ActorsApart (events ++ more)) : Persists p q := by
  rcases sound_of_projects isProjection sorted apart with ⟨last, sound, reached⟩
  rcases isProjection with ⟨first, rest, rfl, isBefore⟩
  rcases isLater with ⟨_, _, isCons, isAfter⟩
  cases isCons
  rw [List.foldlM_append, isBefore] at isAfter
  have hasSession : sessionNodeId sessionId ∈ p.nodes :=
    sound.mentioned first List.mem_cons_self _ (.inl rfl)
  have isSplit : first :: rest ++ more = (first :: rest) ++ more ++ [] := by simp
  rcases sound_foldEvents sound isSplit sorted apart hasSession (by simpa using reached) isAfter with
    ⟨_, _, _, persists⟩
  exact persists

/-! ### The lists of a graph -/

theorem mem_sortedNodes {node : Node} (keyed : ∀ id node, p.nodes.lookup id = some node → node.id = id) :
    node ∈ p.sortedNodes ↔ p.nodes.lookup node.id = some node := by
  rw [Projection.sortedNodes, mem_sortBy, List.mem_map]
  constructor
  · rintro ⟨⟨id, held⟩, isEntry, rfl⟩
    have isNode := AList.mem_lookup_iff.mpr isEntry
    rw [keyed id held isNode]
    exact isNode
  · intro isNode
    exact ⟨⟨node.id, node⟩, AList.mem_lookup_iff.mp isNode, rfl⟩

theorem mem_sortedEdges {edge : Edge}
    (keyed : ∀ key edge, p.edges.lookup key = some edge →
      key = Projection.edgeKey edge.source edge.target edge.kind) :
    edge ∈ p.sortedEdges ↔
      p.edges.lookup (Projection.edgeKey edge.source edge.target edge.kind) = some edge := by
  rw [Projection.sortedEdges, mem_sortBy, List.mem_map]
  constructor
  · rintro ⟨⟨key, held⟩, isEntry, rfl⟩
    have isEdge := AList.mem_lookup_iff.mpr isEntry
    rw [← keyed key held isEdge]
    exact isEdge
  · intro isEdge
    exact ⟨⟨_, edge⟩, AList.mem_lookup_iff.mp isEdge, rfl⟩

theorem sortedNodes_nodup
    (keyed : ∀ id node, p.nodes.lookup id = some node → node.id = id) :
    (p.sortedNodes.map (·.id)).Nodup := by
  have keys : (p.nodes.entries.map Sigma.snd).map (·.id) = p.nodes.keys := by
    rw [List.map_map]
    exact List.map_congr_left fun entry isEntry =>
      keyed entry.1 entry.2 (AList.mem_lookup_iff.mpr isEntry)
  have perm : p.sortedNodes.Perm (p.nodes.entries.map Sigma.snd) := sortBy_perm _
  rw [(perm.map (·.id)).nodup_iff, keys]
  exact p.nodes.keys_nodup

/-- Edges of the same ends and kind have the same key. -/
theorem sortedEdges_nodup
    (keyed : ∀ key edge, p.edges.lookup key = some edge →
      key = Projection.edgeKey edge.source edge.target edge.kind) :
    (p.sortedEdges.map ends).Nodup := by
  have keys : (p.edges.entries.map Sigma.snd).map
      (fun edge => Projection.edgeKey edge.source edge.target edge.kind) = p.edges.keys := by
    rw [List.map_map]
    exact List.map_congr_left fun entry isEntry =>
      (keyed entry.1 entry.2 (AList.mem_lookup_iff.mpr isEntry)).symm
  have perm : p.sortedEdges.Perm (p.edges.entries.map Sigma.snd) := sortBy_perm _
  rw [(perm.map _).nodup_iff]
  refine List.Nodup.of_map (fun pair => Projection.edgeKey pair.1 pair.2.1 pair.2.2) ?_
  rw [List.map_map]
  exact keys.symm ▸ p.edges.keys_nodup

theorem mem_ids_of_mem (keyed : ∀ id node, p.nodes.lookup id = some node → node.id = id)
    {id : NodeId} (isThere : id ∈ p.nodes) : id ∈ p.sortedNodes.map (·.id) := by
  rcases Option.isSome_iff_exists.mp (AList.lookup_isSome.mpr isThere) with ⟨node, isNode⟩
  have sameId := keyed id node isNode
  subst sameId
  exact List.mem_map_of_mem ((mem_sortedNodes keyed).mpr isNode)

theorem wellFormed_of_sound {last : ℤ} (sound : Sound sessionId events events last p)
    {order : List Event} (perm : events.Perm order) :
    WellFormed sessionId order
      { sessionId := sessionId, nodes := p.sortedNodes, edges := p.sortedEdges } where
  nodes := sortedNodes_nodup sound.keyed
  endpoints := by
    intro edge isEdge
    rcases sound.endpoints _ edge ((mem_sortedEdges sound.edgeKeyed).mp isEdge) with ⟨source, target⟩
    exact ⟨mem_ids_of_mem sound.keyed source, mem_ids_of_mem sound.keyed target⟩
  apart := fun edge isEdge => sound.apart _ edge ((mem_sortedEdges sound.edgeKeyed).mp isEdge)
  edges := sortedEdges_nodup sound.edgeKeyed
  least := by
    intro node isNode
    rcases sound.least node.id node ((mem_sortedNodes sound.keyed).mp isNode) with
      ⟨⟨e, isEvent, mentions, isSequence⟩, isLeast⟩
    exact ⟨⟨e, perm.mem_iff.mp isEvent, mentions, isSequence⟩,
      fun e isEvent => isLeast e (perm.mem_iff.mpr isEvent)⟩

theorem sound_of_all (isProjection : Projects sessionId events p)
    (sorted : events.Pairwise InOrder) (apart : ActorsApart events) :
    ∃ last, Sound sessionId events events last p := by
  have isAll : events ++ [] = events := List.append_nil events
  rw [← isAll] at sorted apart
  rcases sound_of_projects isProjection sorted apart with ⟨last, sound, -⟩
  rw [isAll] at sound
  exact ⟨last, sound⟩

theorem wellFormed_of_project {graph : Graph} (apart : ActorsApart events)
    (isGraph : project sessionId events = .ok graph) : WellFormed sessionId events graph := by
  rcases projects_of_project isGraph with ⟨p, isProjection, rfl⟩
  have apartOrdered : ActorsApart (orderedCopy events) := fun e isEvent =>
    apart e (mem_sortBy.mp isEvent)
  rcases sound_of_all isProjection (sortBy_sorted events) apartOrdered with ⟨last, sound⟩
  exact wellFormed_of_sound sound (sortBy_perm events)

end Project

/-! ## Validated events -/

theorem aggregate_kind_of_validate {e : Event} (valid : e.validate = .ok ()) :
    e.aggregate.kind ∈ ["project", "work_package", "assignment", "attempt", "artifact", "issue",
      "strategy", "memory", "tool", "workflow"] := by
  by_contra unknown
  have fails : V1.requireEnum "aggregate.kind" e.aggregate.kind ["project", "work_package",
      "assignment", "attempt", "artifact", "issue", "strategy", "memory", "tool", "workflow"] =
      .error ("aggregate.kind: invalid value " ++ Go.quote e.aggregate.kind) := if_neg unknown
  rw [V1.Event.validate, fails] at valid
  simp only [bind, Except.bind, throw, throwThe, MonadExceptOf.throw] at valid
  repeat' split at valid
  all_goals cases valid

theorem actorsApart_of_valid {events : List Event} (valid : ∀ e ∈ events, e.validate = .ok ()) :
    ActorsApart events := by
  intro e isEvent named same
  have isKind := aggregate_kind_of_validate (valid e isEvent)
  have noColon : ∀ kind ∈ ["project", "work_package", "assignment", "attempt", "artifact", "issue",
      "strategy", "memory", "tool", "workflow"], ':' ∉ kind.toList ∧ kind ≠ "actor" := by decide
  rcases noColon _ isKind with ⟨solid, notActor⟩
  have actorSolid : ':' ∉ "actor".toList := by decide
  exact notActor (Go.append_separator_inj actorSolid solid same).1.symm

end Aa.Visualizer.Session
