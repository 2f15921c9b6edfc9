import Mathlib.Data.Finmap
import Mathlib.Data.Prod.Lex
import Aa.Library.GoError
import Aa.Library.StableSort
import Aa.Contracts.Events

/-!
# The projection of a session

Folds a session's events into a graph. The events are sorted by their sequence, events
of the same sequence in the order in which they were delivered, and each adds the nodes
and edges it names.
-/

namespace Aa.Visualizer

open Aa.Library Aa.Contracts

/-- The sentinel errors of visualizer components. -/
inductive Sentinel where
  | invalid
  | notFound
  | empty
  | budget
deriving DecidableEq

instance : GoSentinel Sentinel where
  text
    | .invalid => "visualizer: invalid input"
    | .notFound => "visualizer: not found"
    | .empty => "visualizer: empty event stream"
    | .budget => "visualizer: performance budget exceeded"

abbrev Error := GoError Sentinel

abbrev Event := V1.Event

abbrev SessionId := String

abbrev NodeId := String

/-! ## Observation metadata -/

namespace Compat

/-- The normalized observation metadata of one event. -/
structure Metadata where
  secondaryPaths : List String := []
  accessSequence : List String := []

def keySecondaryPaths : String := "secondary_paths"

def keyAccessSequence : String := "access_sequence"

def secondaryPathKeys : List String := [keySecondaryPaths, "secondaryPaths"]

def accessSequenceKeys : List String := [keyAccessSequence, "accessSequence"]

namespace Metadata

def isEmpty (metadata : Metadata) : Bool :=
  metadata.secondaryPaths.isEmpty && metadata.accessSequence.isEmpty

end Metadata

/-- The value of the first of the keys that is there. -/
def lookup (payload : Json.Object) (keys : List String) : Option Json :=
  keys.findSome? fun key => List.lookup key payload

/-- The items of a list from `index` on, each of which is a string. -/
def itemStrings (field : String) (index : ℕ) : List Json → Except Error (List String)
  | [] => .ok []
  | item :: rest =>
      match item.asString with
      | none => .error (.wrap .invalid (field ++ "[" ++ toString index ++ "] must be a string"))
      | some value => (itemStrings field (index + 1) rest).map (value :: ·)

def toStrings (field : String) : Json → Except Error (List String)
  | .null => .ok []
  | .str value => if value = "" then .ok [] else .ok [value]
  | .arr items => itemStrings field 0 items
  | _ => .error (.wrap .invalid (field ++ " must be a string or list of strings"))

/-- The values without the repetitions of earlier ones. -/
def dedup (values : List String) : List String :=
  values.eraseDups

/-- The strings under the first of the keys that is there. -/
def stringsAt (payload : Json.Object) (field : String) (keys : List String) :
    Except Error (List String) :=
  match lookup payload keys with
  | none => .ok []
  | some raw => (toStrings field raw).map dedup

/-- Extracts and validates the supported metadata; unknown keys are ignored. -/
def normalizePayload (payload : Json.Object) : Except Error Metadata := do
  let secondaryPaths ← stringsAt payload keySecondaryPaths secondaryPathKeys
  let accessSequence ← stringsAt payload keyAccessSequence accessSequenceKeys
  return { secondaryPaths := secondaryPaths, accessSequence := accessSequence }

def normalize (e : Event) : Except Error Metadata := normalizePayload e.payload

end Compat

/-! ## The graph -/

/-- A graph vertex derived from the event stream. -/
structure Node where
  id : NodeId
  kind : String
  label : String := ""
  ref : String := ""
  sequence : ℤ
  metadata : Finmap fun _ : String => String := ∅
deriving DecidableEq

/-- A graph relation derived from the event stream. -/
structure Edge where
  source : NodeId
  target : NodeId
  kind : String
  sequence : ℤ
deriving DecidableEq

/-- A projection of one session. -/
structure Graph where
  sessionId : SessionId
  nodes : List Node
  edges : List Edge
deriving DecidableEq

namespace Session

/-- The identity of an aggregate kind and reference. -/
def nodeIdFor (kind ref : String) : NodeId := kind ++ ":" ++ ref

def sessionNodeId (id : SessionId) : NodeId := nodeIdFor "session" id

def actorNodeId (id : String) : NodeId := nodeIdFor "actor" id

/-- The nodes, the edges and the two lookups that the projection builds. -/
structure Projection where
  nodes : GoMap NodeId Node := ∅
  edges : GoMap String Edge := ∅
  byEventId : GoMap String NodeId := ∅
  firstByCorrelation : GoMap String NodeId := ∅

namespace Projection

/-- Adds a node unless there is one of that id. -/
def ensure (p : Projection) (id : NodeId) (kind ref : String) (sequence : ℤ) : Projection :=
  match p.nodes.lookup id with
  | some _ => p
  | none =>
      { p with
        nodes := p.nodes.insert id
          { id := id, kind := kind, label := ref, ref := ref, sequence := sequence } }

/-- The metadata of a node with what an event says of it put over it. -/
def annotated (held : Finmap fun _ : String => String) (m : Compat.Metadata) :
    Finmap fun _ : String => String :=
  let paths :=
    if m.secondaryPaths.isEmpty then held
    else held.insert Compat.keySecondaryPaths (Go.join "," m.secondaryPaths)
  if m.accessSequence.isEmpty then paths
  else paths.insert Compat.keyAccessSequence (Go.join "," m.accessSequence)

def annotate (p : Projection) (id : NodeId) (m : Compat.Metadata) : Projection :=
  match p.nodes.lookup id with
  | none => p
  | some n => { p with nodes := p.nodes.insert id { n with metadata := annotated n.metadata m } }

/-- The key of an edge: its ends and its kind, separated by zero characters. -/
def edgeKey (source target : NodeId) (kind : String) : String :=
  source ++ String.ofList [Char.ofNat 0] ++ target ++ String.ofList [Char.ofNat 0] ++ kind

/-- Adds an edge, or gives the one that is there the lower of the two sequences. -/
def connect (p : Projection) (source target : NodeId) (kind : String) (sequence : ℤ) :
    Projection :=
  let key := edgeKey source target kind
  match p.edges.lookup key with
  | some existing =>
      if sequence < existing.sequence then
        { p with edges := p.edges.insert key { existing with sequence := sequence } }
      else p
  | none =>
      { p with
        edges := p.edges.insert key
          { source := source, target := target, kind := kind, sequence := sequence } }

/-- Adds an edge between two different nodes. -/
def connectApart (p : Projection) (source target : NodeId) (kind : String) (sequence : ℤ) :
    Projection :=
  if source = target then p else p.connect source target kind sequence

end Projection

/-- A non-empty string of the payload. -/
def payloadString (payload : Json.Object) (key : String) : Option String :=
  match Json.stringAt (some payload) key with
  | some value => if value = "" then none else some value
  | none => none

/-- The identity of the node of an event's aggregate. -/
def aggregateId (e : Event) : NodeId := nodeIdFor e.aggregate.kind e.aggregate.id

/-! The steps of the loop body in `project`, in their order. -/

/-- Adds the aggregate's node, contained in the session's. -/
def contain (sessionId : SessionId) (p : Projection) (e : Event) : Projection :=
  let contained := (p.ensure (aggregateId e) e.aggregate.kind e.aggregate.id e.sequence).connectApart
    (sessionNodeId sessionId) (aggregateId e) "contains" e.sequence
  { contained with byEventId := contained.byEventId.insert e.id (aggregateId e) }

/-- Adds the node of the actor, if there is one, which accesses the aggregate. -/
def access (p : Projection) (e : Event) : Projection :=
  if e.actor.id = "" then p
  else
    (p.ensure (actorNodeId e.actor.id) "actor" e.actor.id e.sequence).connect
      (actorNodeId e.actor.id) (aggregateId e) "access" e.sequence

/-- Connects the aggregate of the event that is named as the cause, if it came before. -/
def cause (p : Projection) (e : Event) : Projection :=
  if e.causationId = "" then p
  else
    match p.byEventId.lookup e.causationId with
    | some first => p.connectApart first (aggregateId e) "causation" e.sequence
    | none => p

/-- Connects the aggregate of the first event of the correlation. -/
def correlate (p : Projection) (e : Event) : Projection :=
  if e.correlationId = "" then p
  else
    match p.firstByCorrelation.lookup e.correlationId with
    | some first => p.connectApart first (aggregateId e) "correlation" e.sequence
    | none =>
        { p with firstByCorrelation := p.firstByCorrelation.insert e.correlationId (aggregateId e) }

/-- Adds the node that the payload names under a key, and an edge to it. -/
def mention (p : Projection) (e : Event) (key kind edge : String) : Projection :=
  match payloadString e.payload key with
  | none => p
  | some ref =>
      (p.ensure (nodeIdFor kind ref) kind ref e.sequence).connectApart (aggregateId e)
        (nodeIdFor kind ref) edge e.sequence

/-- What one event adds. -/
def foldEvent (sessionId : SessionId) (p : Projection) (e : Event) : Except Error Projection :=
  let correlated := correlate (cause (access (contain sessionId p e) e) e) e
  match Compat.normalize e with
  | .error error => .error error
  | .ok metadata =>
      let noted :=
        if metadata.isEmpty then correlated else correlated.annotate (aggregateId e) metadata
      let assigned := mention noted e "workPackageId" "work_package" "assigns"
      .ok (mention assigned e "artifactId" "artifact" "produces")

/-- The nodes by their id. -/
def Projection.sortedNodes (p : Projection) : List Node :=
  sortBy (·.id) (p.nodes.entries.map Sigma.snd)

/-- The edges by their ends and kind. -/
def Projection.sortedEdges (p : Projection) : List Edge :=
  sortBy (fun e => toLex (e.source, toLex (e.target, e.kind))) (p.edges.entries.map Sigma.snd)

def orderedCopy (events : List Event) : List Event := sortBy (·.sequence) events

/-- Folds events into a graph for a session. -/
def project (sessionId : SessionId) (events : List Event) : Except Error Graph :=
  if sessionId = "" then .error (.wrap .invalid "sessionId is required")
  else
    match orderedCopy events with
    | [] => .error (.wrap .empty ("session " ++ Go.quote sessionId))
    | first :: rest =>
        let start := ({} : Projection).ensure (sessionNodeId sessionId) "session" sessionId
          first.sequence
        match (first :: rest).foldlM (foldEvent sessionId) start with
        | .error error => .error error
        | .ok p =>
            .ok { sessionId := sessionId, nodes := p.sortedNodes, edges := p.sortedEdges }

end Session

end Aa.Visualizer
