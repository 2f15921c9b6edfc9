import Mathlib.Data.Set.Basic
import Aa.Library.GoText
import Aa.Library.JsonText
import Aa.Sync.Types

/-!
# Mutual authentication

A node is known by the fingerprint of its public key. It answers the nonce of a peer with a
signature over a challenge, which holds the id of the verifier, its own id and the nonce,
separated by colons. The hash and the signature scheme are parameters. Where a signature
verifies only on the message that its key signed, a signature is accepted as the response of a
peer only if that peer responded to this verifier and this nonce.
-/

namespace Aa.Sync.Identity

open Aa.Library

/-- The signatures of `crypto/ed25519`. -/
structure Ed25519 where
  sign : Bytes → Bytes → Bytes
  verify : Bytes → Bytes → Bytes → Bool

def signatureSize : ℕ := 64

structure KeyPair where
  privateKey : Bytes
  publicKey : Bytes

/-- The shared representation of a node. -/
structure NamedPeer where
  id : NodeId
  name : String := ""
deriving DecidableEq

/-- A local or remote identity; a local one carries its private key. -/
structure Node where
  id : NodeId
  publicKey : Bytes
  name : String := ""
  key : Option KeyPair := none

/-- An established pairing between two nodes. -/
structure EstablishedPairing where
  localPeer : NamedPeer
  remote : NamedPeer
  pairedAt : Time
deriving DecidableEq

/-- `hex.EncodeToString`. -/
def encodeHex (data : Bytes) : List Char :=
  data.flatMap fun byte => [JsonText.hexDigit (byte.toNat / 16), JsonText.hexDigit (byte.toNat % 16)]

section Calls

variable (sha256 : Bytes → Bytes) (ed25519 : Ed25519)

/-- The node id of a public key. -/
def fingerprint (publicKey : Bytes) : NodeId :=
  String.ofList ((encodeHex (sha256 publicKey)).take 16)

def newNode (keys : KeyPair) (name : String) : Node where
  id := fingerprint sha256 keys.publicKey
  publicKey := keys.publicKey
  name := name
  key := some keys

/-- A remote node that can be verified against. -/
def remoteNode (publicKey : Bytes) (name : String) : Node where
  id := fingerprint sha256 publicKey
  publicKey := publicKey
  name := name

def Node.peer (n : Node) : NamedPeer := { id := n.id, name := n.name }

/-- `[]byte(id)`. -/
def idBytes (id : NodeId) : Bytes := id.toList.flatMap String.utf8EncodeChar

def colon : UInt8 := 58

/-- Binds a nonce to two node ids. -/
def challengeFor (a b : NodeId) (nonce : Bytes) : Bytes :=
  idBytes "aa-sync-auth:" ++ (idBytes a ++ colon :: (idBytes b ++ colon :: nonce))

/-- Signs the peer's nonce, bound to both node ids. -/
def respond (localNode : Node) (peer : NodeId) (nonce : Bytes) : Except Error Bytes :=
  match localNode.key with
  | none => .error (.sentinel .unauthorized)
  | some keys => .ok (ed25519.sign keys.privateKey (challengeFor peer localNode.id nonce))

/-- Checks that `sig` is the peer's signature over the local node's nonce. -/
def verify (peer : Node) (localId : NodeId) (nonce sig : Bytes) : Except Error Unit :=
  if sig.length ≠ signatureSize then .error (.sentinel .unauthorized)
  else if !ed25519.verify peer.publicKey (challengeFor localId peer.id nonce) sig then
    .error (.sentinel .unauthorized)
  else .ok ()

/-- A full challenge and response between two local nodes. -/
def mutualAuthWithNonces (a b : Node) (nonceA nonceB : Bytes) (now : Time) :
    Except Error EstablishedPairing :=
  if a.key.isNone || b.key.isNone then .error (.sentinel .unauthorized)
  else do
    let sigA ← respond ed25519 a b.id nonceB
    verify ed25519 a b.id nonceB sigA
    let sigB ← respond ed25519 b a.id nonceA
    verify ed25519 b a.id nonceA sigB
    pure { localPeer := a.peer, remote := b.peer, pairedAt := now }

end Calls

/-! ## The parts of a challenge -/

def hexByte (value : ℕ) : UInt8 := if value < 10 then (48 + value).toUInt8 else (87 + value).toUInt8

theorem utf8EncodeChar_hexDigit {value : ℕ} (small : value < 16) :
    String.utf8EncodeChar (JsonText.hexDigit value) = [hexByte value] ∧ hexByte value ≠ colon := by
  revert value
  decide

theorem hexByte_inj {first second : ℕ} (firstSmall : first < 16) (secondSmall : second < 16)
    (same : hexByte first = hexByte second) : first = second := by
  have all : ∀ first < 16, ∀ second < 16, hexByte first = hexByte second → first = second := by
    decide
  exact all first firstSmall second secondSmall same

/-- A text of hexadecimal digits. -/
def IsHex (id : NodeId) : Prop := ∀ c ∈ id.toList, ∃ value < 16, c = JsonText.hexDigit value

theorem isHex_fingerprint (sha256 : Bytes → Bytes) (publicKey : Bytes) :
    IsHex (fingerprint sha256 publicKey) := by
  intro c isThere
  rw [fingerprint, String.toList_ofList] at isThere
  rcases List.mem_flatMap.mp (List.mem_of_mem_take isThere) with ⟨byte, _, isDigit⟩
  have small : byte.toNat < 256 := byte.toNat_lt
  simp only [List.mem_cons, List.not_mem_nil, or_false] at isDigit
  rcases isDigit with isHigh | isLow
  · exact ⟨_, by omega, isHigh⟩
  · exact ⟨_, by omega, isLow⟩

theorem colon_notMem_idBytes {id : NodeId} (isHex : IsHex id) : colon ∉ idBytes id := by
  intro isThere
  rcases List.mem_flatMap.mp isThere with ⟨c, isChar, isByte⟩
  rcases isHex c isChar with ⟨value, small, rfl⟩
  rcases utf8EncodeChar_hexDigit small with ⟨isSingle, notColon⟩
  rw [isSingle, List.mem_singleton] at isByte
  exact notColon isByte.symm

theorem idBytes_inj {first second : NodeId} (firstHex : IsHex first) (secondHex : IsHex second)
    (same : idBytes first = idBytes second) : first = second := by
  refine String.toList_inj.mp ?_
  unfold IsHex at firstHex secondHex
  unfold idBytes at same
  generalize first.toList = left at firstHex same ⊢
  generalize second.toList = right at secondHex same ⊢
  induction left generalizing right with
  | nil =>
      cases right with
      | nil => rfl
      | cons d later =>
          rcases secondHex d List.mem_cons_self with ⟨value, small, rfl⟩
          simp [(utf8EncodeChar_hexDigit small).1] at same
  | cons c rest ih =>
      rcases firstHex c List.mem_cons_self with ⟨value, small, rfl⟩
      cases right with
      | nil => simp [(utf8EncodeChar_hexDigit small).1] at same
      | cons d later =>
          rcases secondHex d List.mem_cons_self with ⟨other, otherSmall, rfl⟩
          simp only [List.flatMap_cons, (utf8EncodeChar_hexDigit small).1,
            (utf8EncodeChar_hexDigit otherSmall).1, List.singleton_append, List.cons.injEq] at same
          rw [hexByte_inj small otherSmall same.1,
            ih (fun c isThere => firstHex c (List.mem_cons_of_mem _ isThere)) later
              (fun c isThere => secondHex c (List.mem_cons_of_mem _ isThere)) same.2]

/-- A challenge tells the two ids, in their order, and the nonce. -/
theorem challengeFor_inj {a b c d : NodeId} {first second : Bytes} (aHex : IsHex a)
    (bHex : IsHex b) (cHex : IsHex c) (dHex : IsHex d)
    (same : challengeFor a b first = challengeFor c d second) :
    a = c ∧ b = d ∧ first = second := by
  have rest := List.append_cancel_left same
  rcases Go.append_cons_inj (colon_notMem_idBytes aHex) (colon_notMem_idBytes cHex) rest with
    ⟨sameFirst, rest⟩
  rcases Go.append_cons_inj (colon_notMem_idBytes bHex) (colon_notMem_idBytes dHex) rest with
    ⟨sameSecond, sameNonce⟩
  exact ⟨idBytes_inj aHex cHex sameFirst, idBytes_inj bHex dHex sameSecond, sameNonce⟩

/-! ## Sessions -/

/-- A call of `respond`. -/
structure Response where
  responder : Node
  verifier : NodeId
  nonce : Bytes

variable {sha256 : Bytes → Bytes} {ed25519 : Ed25519} {responses : Set Response}

/-- The node is known by the fingerprint of its key, and the private key it may carry is its
own. -/
structure Genuine (sha256 : Bytes → Bytes) (n : Node) : Prop where
  id : n.id = fingerprint sha256 n.publicKey
  key : ∀ keys ∈ n.key, keys.publicKey = n.publicKey

theorem genuine_newNode (keys : KeyPair) (name : String) :
    Genuine sha256 (newNode sha256 keys name) where
  id := rfl
  key other isKey := by
    cases isKey
    rfl

theorem genuine_remoteNode (publicKey : Bytes) (name : String) :
    Genuine sha256 (remoteNode sha256 publicKey name) where
  id := rfl
  key other isKey := by cases isKey

/-- An honest response: a genuine local node answers a node that is known by a fingerprint. -/
structure Honest (sha256 : Bytes → Bytes) (response : Response) : Prop where
  genuine : Genuine sha256 response.responder
  isLocal : response.responder.key.isSome
  verifier : ∃ publicKey, response.verifier = fingerprint sha256 publicKey

/-- What a response signs. -/
def Response.challenge (response : Response) : Bytes :=
  challengeFor response.verifier response.responder.id response.nonce

/-- Ideal signatures, of keys that sign nothing but the responses: what verifies under the key
of a peer was signed with it, and the signature of a response verifies on no other message and
under no other key. -/
structure Ideal (ed25519 : Ed25519) (responses : Set Response) (publicKey : Bytes) : Prop where
  signed : ∀ message sig, ed25519.verify publicKey message sig = true →
    ∃ response ∈ responses, response.responder.publicKey = publicKey ∧
      response.challenge = message
  bound : ∀ response ∈ responses, ∀ sig message,
    respond ed25519 response.responder response.verifier response.nonce = .ok sig →
      ed25519.verify publicKey message sig = true →
        response.responder.publicKey = publicKey ∧ response.challenge = message

/-- The response is of this peer, for this verifier and this nonce. -/
structure Answers (response : Response) (peer : Node) (localId : NodeId) (nonce : Bytes) : Prop where
  responder : response.responder.publicKey = peer.publicKey
  verifier : response.verifier = localId
  nonce : response.nonce = nonce

theorem verify_eq_ok {peer : Node} {localId : NodeId} {nonce sig : Bytes} :
    verify ed25519 peer localId nonce sig = .ok () ↔ sig.length = signatureSize ∧
      ed25519.verify peer.publicKey (challengeFor localId peer.id nonce) sig = true := by
  rw [verify]
  split
  · rename_i wrongSize
    exact ⟨fun isOk => (by cases isOk), fun holds => absurd holds.1 wrongSize⟩
  · rename_i rightSize
    split
    · rename_i refused
      exact ⟨fun isOk => (by cases isOk), fun holds => by simp [holds.2] at refused⟩
    · rename_i accepted
      exact ⟨fun _ => ⟨not_not.mp rightSize, by simpa using accepted⟩, fun _ => rfl⟩

/-- A response whose challenge is the one a verifier looks for answers that verifier. -/
theorem answers_of_challenge {response : Response} {peer : Node} {localKey nonce : Bytes}
    (honest : Honest sha256 response) (genuine : Genuine sha256 peer)
    (responder : response.responder.publicKey = peer.publicKey)
    (same : response.challenge = challengeFor (fingerprint sha256 localKey) peer.id nonce) :
    Answers response peer (fingerprint sha256 localKey) nonce := by
  have hexes (key : Bytes) : IsHex (fingerprint sha256 key) := isHex_fingerprint sha256 key
  rcases honest.verifier with ⟨verifierKey, isVerifier⟩
  rw [Response.challenge, isVerifier, honest.genuine.id, genuine.id] at same
  rcases challengeFor_inj (hexes _) (hexes _) (hexes _) (hexes _) same with
    ⟨sameVerifier, _, sameNonce⟩
  exact ⟨responder, isVerifier.trans sameVerifier, sameNonce⟩

/-- A signature is accepted for a peer only if the peer responded to this verifier and nonce;
and the signature of a response is accepted only for the node that responded, by the verifier
and for the nonce it responded to. -/
theorem accepted_only_responses (honest : ∀ response ∈ responses, Honest sha256 response)
    {peer : Node} (genuine : Genuine sha256 peer) (ideal : Ideal ed25519 responses peer.publicKey)
    (localKey nonce sig : Bytes)
    (accepted : verify ed25519 peer (fingerprint sha256 localKey) nonce sig = .ok ()) :
    (∃ response ∈ responses, Answers response peer (fingerprint sha256 localKey) nonce) ∧
      ∀ response ∈ responses,
        respond ed25519 response.responder response.verifier response.nonce = .ok sig →
          Answers response peer (fingerprint sha256 localKey) nonce := by
  have verified := (verify_eq_ok.mp accepted).2
  constructor
  · rcases ideal.signed _ _ verified with ⟨response, isThere, responder, same⟩
    exact ⟨response, isThere,
      answers_of_challenge (honest response isThere) genuine responder same⟩
  · intro response isThere isResponse
    rcases ideal.bound response isThere _ _ isResponse verified with ⟨responder, same⟩
    exact answers_of_challenge (honest response isThere) genuine responder same

/-- Two local nodes whose signatures verify authenticate each other. -/
theorem mutualAuth_succeeds {a b : Node} {aKeys bKeys : KeyPair} (aLocal : a.key = some aKeys)
    (bLocal : b.key = some bKeys)
    (size : ∀ key message, (ed25519.sign key message).length = signatureSize)
    (aVerifies : ∀ message,
      ed25519.verify a.publicKey message (ed25519.sign aKeys.privateKey message) = true)
    (bVerifies : ∀ message,
      ed25519.verify b.publicKey message (ed25519.sign bKeys.privateKey message) = true)
    (nonceA nonceB : Bytes) (now : Time) :
    mutualAuthWithNonces ed25519 a b nonceA nonceB now =
      .ok { localPeer := a.peer, remote := b.peer, pairedAt := now } := by
  have accepts {n : Node} {keys : KeyPair} (verifies : ∀ message,
      ed25519.verify n.publicKey message (ed25519.sign keys.privateKey message) = true)
      (peer : NodeId) (nonce : Bytes) : verify ed25519 n peer nonce
        (ed25519.sign keys.privateKey (challengeFor peer n.id nonce)) = .ok () :=
    verify_eq_ok.mpr ⟨size _ _, verifies _⟩
  simp only [mutualAuthWithNonces, respond, aLocal, bLocal, bind, Except.bind, accepts aVerifies,
    accepts bVerifies]
  rfl

/-! ## A response of one node to another -/

/-- The bytes that hexadecimal digits spell. -/
def decodeHex : List Char → Bytes
  | high :: low :: rest =>
      (16 * JsonText.hexValue high + JsonText.hexValue low).toUInt8 :: decodeHex rest
  | _ => []

def seedOfA : Bytes :=
  decodeHex "a9d845bbde13e3e6cbfcc937a50f5aa1c95c4629a6c89bf2702ad46029e5570b".toList

def publicOfA : Bytes :=
  decodeHex "849e4d38417ec701f93b19e275022a89dcbe95c38dee839a289435a660fb4b87".toList

def publicOfB : Bytes :=
  decodeHex "da28cc55ecea2539a04414752ee84404dfb5cf33ebbb742a9d90326731593ac0".toList

/-- The digests of the two public keys. -/
def digests (data : Bytes) : Bytes :=
  if data = publicOfA then
    decodeHex "03c523e6463d023e5031a3b3138783e94ccef6979b13473fb1bc0fae0e3fd098".toList
  else decodeHex "ffd43072f404daa11b84e7e7c1cec87fcee47a74af0bb55a4f4b567e13220345".toList

def nodeA : Node := newNode digests { privateKey := seedOfA ++ publicOfA, publicKey := publicOfA } "a"

/-- The first node answers a nonce of the second. -/
def responseOfA : Response where
  responder := nodeA
  verifier := fingerprint digests publicOfB
  nonce := idBytes "nonce"

def signatureOfA : Bytes :=
  decodeHex ("f75824fd58ef46d76d0edbb5f575b7ad0e9b1e321c27edbda35e9c0843082587" ++
    "c8c4aad645ce230b78d2e2047581e177ee0a7474b93887a622f229c801505d02").toList

/-- The one signature that is made. -/
def signatures : Ed25519 where
  sign key message :=
    if key = seedOfA ++ publicOfA ∧ message = responseOfA.challenge then signatureOfA else []
  verify publicKey message sig :=
    publicKey = publicOfA ∧ message = responseOfA.challenge ∧ sig = signatureOfA

theorem responseOfA_accepted :
    verify signatures nodeA (fingerprint digests publicOfB) (idBytes "nonce") signatureOfA = .ok () ∧
      (∃ response ∈ ({responseOfA} : Set Response),
        Answers response nodeA (fingerprint digests publicOfB) (idBytes "nonce")) ∧
      ∀ response ∈ ({responseOfA} : Set Response),
        respond signatures response.responder response.verifier response.nonce =
            .ok signatureOfA →
          Answers response nodeA (fingerprint digests publicOfB) (idBytes "nonce") := by
  have verified : signatures.verify publicOfA responseOfA.challenge signatureOfA = true := by
    simp only [signatures, and_self, decide_true]
  have accepted : verify signatures nodeA (fingerprint digests publicOfB) (idBytes "nonce")
      signatureOfA = .ok () := verify_eq_ok.mpr ⟨by decide +kernel, verified⟩
  have honest : ∀ response ∈ ({responseOfA} : Set Response), Honest digests response := by
    rintro _ rfl
    exact ⟨genuine_newNode _ _, rfl, publicOfB, rfl⟩
  have ideal : Ideal signatures {responseOfA} nodeA.publicKey := by
    constructor
    · intro message sig isVerified
      exact ⟨responseOfA, rfl, rfl, (of_decide_eq_true isVerified).2.1.symm⟩
    · rintro _ rfl sig message _ isVerified
      exact ⟨rfl, (of_decide_eq_true isVerified).2.1.symm⟩
  exact ⟨accepted, accepted_only_responses honest (genuine_newNode _ _) ideal publicOfB _ _
    accepted⟩

end Aa.Sync.Identity
