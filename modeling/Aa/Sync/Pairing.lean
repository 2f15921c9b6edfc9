import Aa.Sync.Identity

/-!
# Pairing tokens are bound, fresh and single-use

The MAC of a token is taken of the node id and the text of the expiry, with nothing between
them. A year has at least four digits and may have more, so that a node id that ends in digits
can lend them to the year: a token issued for `a1` until 2000 is a token for `a` until 12000.
The other parts of the expiry are determined by the text. Where no call lends digits, a call
that accepts a token accepts what was issued for its node and expiry, before the expiry and
once.
-/

namespace Aa.Sync.Identity

open Aa.Library Calendar

abbrev PairingStep := Machine.Step PairingService (ℤ × Call) Returned

/-- A token was issued in one of the steps. -/
def Issued (steps : List PairingStep) (token : Token) : Prop :=
  ∃ step ∈ steps, step.output = .issued token

/-- A token value was accepted in one of the steps. -/
def Accepted (steps : List PairingStep) (value : String) : Prop :=
  ∃ step ∈ steps, ∃ now token claimer, step.input = (now, .accept token claimer) ∧
    step.output = .accepted (.ok ()) ∧ token.value = value

/-- Accepted is only a token that was issued for the claimer with its expiry, before it expires,
and no value a second time. -/
def Bound (earlier : List PairingStep) (step : PairingStep) : Prop :=
  ∀ now token claimer, step.input = (now, .accept token claimer) →
    step.output = .accepted (.ok ()) →
      token.node = claimer ∧ now < token.expiresAt ∧ Issued earlier token ∧
        ¬ Accepted earlier token.value

/-- The MAC is unforgeable: a presented value that is the MAC of some text is the value of a
token that was issued. -/
def Unforged (mac : String → String) (earlier : List PairingStep) (step : PairingStep) : Prop :=
  ∀ now token claimer text, step.input = (now, .accept token claimer) → token.value = mac text →
    ∃ issued, Issued earlier issued ∧ issued.value = token.value

/-- Two tokens for different nodes spell the same text: they expire at the same moment of
different years, and the node ids make up for the years. -/
def Confuses (token other : Token) : Prop :=
  token.node ≠ other.node ∧
    token.node.toList ++ yearText (yearOf token.expiresAt) =
      other.node.toList ++ yearText (yearOf other.expiresAt) ∧
    momentOf token.expiresAt = momentOf other.expiresAt

/-- A call presents the unused value of an issued token for another node, with an expiry that
lets both spell the same text and has not passed. -/
def Misused (earlier : List PairingStep) (step : PairingStep) : Prop :=
  ∃ now token claimer other, step.input = (now, .accept token claimer) ∧
    Issued earlier other ∧ Confuses token other ∧ token.value = other.value ∧
    ¬ Issued earlier token ∧ ¬ Accepted earlier token.value ∧
    token.value ≠ "" ∧ token.node ≠ "" ∧ token.node = claimer ∧ now < token.expiresAt

theorem pairingText_eq_iff {token other : Token} :
    pairingText token.node token.expiresAt = pairingText other.node other.expiresAt ↔
      (token.node = other.node ∧ token.expiresAt = other.expiresAt) ∨ Confuses token other := by
  rw [pairingText, pairingText, append_rfc3339Nano_inj]
  constructor
  · rintro ⟨starts, moment⟩
    by_cases sameNode : token.node = other.node
    · rw [sameNode] at starts
      have year := yearText_inj (List.append_cancel_left starts)
      exact .inl ⟨sameNode, instant_eq_of_reading year moment⟩
    · exact .inr ⟨sameNode, starts, moment⟩
  · rintro (⟨node, expiry⟩ | ⟨-, starts, moment⟩)
    · rw [node, expiry]
      exact ⟨rfl, rfl⟩
    · exact ⟨starts, moment⟩

/-- Tokens that expire in the years 0 to 9999 spell different texts. -/
theorem not_confuses_of_four_digits {token other : Token}
    (year : 0 ≤ yearOf token.expiresAt ∧ yearOf token.expiresAt ≤ 9999)
    (otherYear : 0 ≤ yearOf other.expiresAt ∧ yearOf other.expiresAt ≤ 9999) :
    ¬ Confuses token other := by
  rintro ⟨nodes, starts, -⟩
  have lengths : (yearText (yearOf token.expiresAt)).length =
      (yearText (yearOf other.expiresAt)).length := by
    rw [length_yearText year.1 year.2, length_yearText otherYear.1 otherYear.2]
  exact nodes (String.toList_inj.mp (List.append_inj_left' starts lengths))

section Runs

variable {mac : String → String}

/-- The calls that are accepted, and what is remembered of them. -/
theorem accept_cases (mac : String → String) (service : PairingService) (now : ℤ) (token : Token) (claimer : NodeId) :
    (token.value ≠ "" ∧ token.node ≠ "" ∧ token.node = claimer ∧ now < token.expiresAt ∧
        token.value = mac (pairingText token.node token.expiresAt) ∧
        token.value ∉ service.used ∧
        service.accept mac now token claimer =
          (.ok (), { service with used := token.value :: service.used })) ∨
      (¬ (token.value ≠ "" ∧ token.node ≠ "" ∧ token.node = claimer ∧ now < token.expiresAt ∧
        token.value = mac (pairingText token.node token.expiresAt) ∧
        token.value ∉ service.used) ∧
        ∃ error, service.accept mac now token claimer = (.error error, service)) := by
  unfold PairingService.accept
  split
  · rename_i missing
    refine .inr ⟨fun accepted => ?_, _, rfl⟩
    rcases missing with isEmpty | isEmpty | isEmpty
    · exact accepted.1 isEmpty
    · exact accepted.2.1 isEmpty
    · exact accepted.2.1 (accepted.2.2.1.trans isEmpty)
  · rename_i present
    simp only [not_or] at present
    split
    · rename_i isOther
      exact .inr ⟨fun accepted => isOther accepted.2.2.1, _, rfl⟩
    · rename_i claimed
      split
      · rename_i expired
        exact .inr ⟨fun accepted => expired accepted.2.2.2.1, _, rfl⟩
      · rename_i fresh
        split
        · rename_i forged
          exact .inr ⟨fun accepted => forged accepted.2.2.2.2.1.symm, _, rfl⟩
        · rename_i genuine
          split
          · rename_i used
            exact .inr ⟨fun accepted => accepted.2.2.2.2.2 used, _, rfl⟩
          · rename_i unused
            exact .inl ⟨present.1, present.2.1, not_not.mp claimed, not_not.mp fresh,
              (not_not.mp genuine).symm, unused, rfl⟩

/-- What the service knows of the steps so far: the values it accepted, and that the tokens it
issued have their values from the MAC. -/
structure Knows (mac : String → String) (past : List PairingStep) (service : PairingService) :
    Prop where
  used : ∀ value, value ∈ service.used ↔ Accepted past value
  issued : ∀ token, Issued past token → token.value = mac (pairingText token.node token.expiresAt)

theorem issued_append {past : List PairingStep} {step : PairingStep} {token : Token} :
    Issued (past ++ [step]) token ↔ Issued past token ∨ step.output = .issued token := by
  simp [Issued, or_and_right, exists_or]

theorem accepted_append {past : List PairingStep} {step : PairingStep} {value : String} :
    Accepted (past ++ [step]) value ↔
      Accepted past value ∨ ∃ now token claimer, step.input = (now, .accept token claimer) ∧
        step.output = .accepted (.ok ()) ∧ token.value = value := by
  simp [Accepted, or_and_right, exists_or]

/-- A step adds to what the service knows. -/
theorem Knows.step {past : List PairingStep} {service : PairingService}
    (knows : Knows mac past service) (input : ℤ × Call) :
    Knows mac (past ++ [(machine mac).stepAt service input]) ((machine mac).step service input).1 := by
  rcases input with ⟨now, call⟩
  cases call with
  | issue remote ttl =>
      constructor
      · intro value
        rw [accepted_append, ← knows.used]
        simp [Machine.stepAt, machine]
      · intro token issued
        rcases issued_append.mp issued with before | isNow
        · exact knows.issued token before
        · cases isNow
          rfl
  | accept token claimer =>
      constructor
      · intro value
        rw [accepted_append, ← knows.used]
        rcases accept_cases mac service now token claimer with
          ⟨-, -, -, -, -, -, ends⟩ | ⟨-, error, ends⟩
        · simp [Machine.stepAt, machine, ends, eq_comm, or_comm]
        · simp [Machine.stepAt, machine, ends]
      · intro other issued
        rcases issued_append.mp issued with before | isNow
        · exact knows.issued other before
        · cases isNow

/-- A step binds what it accepts exactly if it does not misuse an issued token. -/
theorem bound_iff {past : List PairingStep} {service : PairingService} {input : ℤ × Call}
    (injective : Function.Injective mac) (knows : Knows mac past service)
    (unforged : Unforged mac past ((machine mac).stepAt service input)) :
    Bound past ((machine mac).stepAt service input) ↔
      ¬ Misused past ((machine mac).stepAt service input) := by
  constructor
  · rintro bound ⟨now, token, claimer, other, isInput, issued, confuses, value, notIssued,
      notAccepted, hasValue, hasNode, claimed, fresh⟩
    have sameText := pairingText_eq_iff.mpr (.inr confuses)
    have genuine : token.value = mac (pairingText token.node token.expiresAt) := by
      rw [value, sameText, knows.issued other issued]
    have isOk : ((machine mac).stepAt service input).output = .accepted (.ok ()) := by
      change input = _ at isInput
      rcases accept_cases mac service now token claimer with
        ⟨-, -, -, -, -, -, ends⟩ | ⟨refused, -⟩
      · simp [Machine.stepAt, machine, isInput, ends]
      · refine absurd ⟨hasValue, hasNode, claimed, fresh, genuine, ?_⟩ refused
        rwa [knows.used]
    exact notIssued (bound now token claimer isInput isOk).2.2.1
  · intro proper now token claimer isInput isOk
    have isAccept : input = (now, .accept token claimer) := isInput
    subst isAccept
    rcases accept_cases mac service now token claimer with
      ⟨hasValue, hasNode, claimed, fresh, genuine, unused, -⟩ | ⟨-, error, ends⟩
    · have notAccepted : ¬ Accepted past token.value := by rwa [← knows.used]
      rcases unforged now token claimer _ rfl genuine with ⟨other, issued, value⟩
      have sameText : pairingText other.node other.expiresAt =
          pairingText token.node token.expiresAt := by
        apply injective
        rw [← knows.issued other issued, value, genuine]
      refine ⟨claimed, fresh, ?_, notAccepted⟩
      by_contra notIssued
      rcases pairingText_eq_iff.mp sameText.symm with ⟨node, expiry⟩ | confuses
      · have same : token = other := Token.ext value.symm node expiry
        exact notIssued (same ▸ issued)
      · exact proper ⟨now, token, claimer, other, rfl, issued, confuses, value.symm, notIssued,
          notAccepted, hasValue, hasNode, claimed, fresh⟩
    · simp [Machine.stepAt, machine, ends] at isOk

/-- The same for all steps of a run. -/
theorem guarded_bound_iff {past : List PairingStep} {service : PairingService}
    {inputs : List (ℤ × Call)} (injective : Function.Injective mac)
    (knows : Knows mac past service)
    (unforged : Guarded (Unforged mac) past ((machine mac).steps service inputs)) :
    Guarded Bound past ((machine mac).steps service inputs) ↔
      Guarded (fun earlier step => ¬ Misused earlier step) past
        ((machine mac).steps service inputs) := by
  induction inputs generalizing past service with
  | nil => exact Iff.rfl
  | cons input rest ih =>
      rcases unforged with ⟨now, later⟩
      exact and_congr (bound_iff injective knows now) (ih (knows.step input) later)

end Runs

/-- The expiry that a call issues or presents. -/
def expiryOf (input : ℤ × Call) : ℤ :=
  match input.2 with
  | .issue _ ttl => input.1 + ttl
  | .accept token _ => token.expiresAt

/-- An issued token expires as its call says. -/
theorem expiresAt_of_issued {mac : String → String} {service : PairingService}
    {input : ℤ × Call} {token : Token}
    (issued : ((machine mac).step service input).2 = .issued token) :
    token.expiresAt = expiryOf input := by
  rcases input with ⟨now, call⟩
  cases call with
  | issue remote ttl =>
      injection issued with same
      exact (congrArg Token.expiresAt same).symm
  | accept presented claimer => cases issued

/-- The expiry of a call lies in the years 0 to 9999. -/
def FourDigits (input : ℤ × Call) : Prop :=
  0 ≤ yearOf (expiryOf input) ∧ yearOf (expiryOf input) ≤ 9999

/-- In these years no token is misused. -/
theorem not_misused_of_fourDigits {mac : String → String} {inputs : List (ℤ × Call)}
    (fourDigits : ∀ input ∈ inputs, FourDigits input) :
    Guarded (fun earlier step => ¬ Misused earlier step) [] ((machine mac).steps {} inputs) := by
  refine guarded_iff_split.mpr fun before step after split => ?_
  rintro ⟨now, token, claimer, other, isInput, issued, confuses, -⟩
  have inputOf : ∀ step ∈ (machine mac).steps {} inputs, FourDigits step.input :=
    fun step stepMem => fourDigits _ ((machine mac).input_mem step stepMem)
  have year := inputOf step (by simp [split])
  rw [FourDigits, isInput] at year
  rcases issued with ⟨issuing, isBefore, isIssued⟩
  have stepMem : issuing ∈ (machine mac).steps {} inputs := by
    rw [split]
    exact List.mem_append_left _ isBefore
  have otherYear := inputOf issuing stepMem
  rw [Machine.step_eq_stepAt stepMem] at isIssued
  rw [FourDigits, ← expiresAt_of_issued isIssued] at otherYear
  exact not_confuses_of_four_digits year otherYear confuses

/-- In every run each accepted token was issued for its claimer and expiry, has not expired and
is accepted once exactly if no call misuses an issued token. -/
theorem accepts_bound_iff {mac : String → String} (injective : Function.Injective mac)
    (inputs : List (ℤ × Call))
    (unforged : Guarded (Unforged mac) [] ((machine mac).steps {} inputs)) :
    Guarded Bound [] ((machine mac).steps {} inputs) ↔
      Guarded (fun earlier step => ¬ Misused earlier step) [] ((machine mac).steps {} inputs) := by
  refine guarded_bound_iff injective ⟨?_, ?_⟩ unforged
  · simp [Accepted]
  · simp [Issued]

/-- The start of a year. -/
def startOfYear (year : ℤ) : ℤ := daysOf ⟨year, 1, 1⟩ * nanosPerDay

/-- A token is issued for `a1` until the year 2000, and presented by a claimer with an expiry. -/
def presented (claimer : NodeId) (year : ℤ) : List (ℤ × Call) :=
  [(startOfYear 1999, .issue "a1" (startOfYear 2000 - startOfYear 1999)),
    (startOfYear 1999, .accept
      { value := pairingText "a1" (startOfYear 2000), node := claimer
        expiresAt := startOfYear year } claimer)]

/-- The presented value is that of the issued token. -/
theorem presented_unforged (claimer : NodeId) (year : ℤ) :
    Guarded (Unforged id) [] ((machine id).steps {} (presented claimer year)) := by
  refine ⟨?_, ?_, trivial⟩
  · rintro now token other text ⟨⟩
  · rintro now token other text ⟨⟩ -
    refine ⟨PairingService.issue id _ _ _, ⟨_, List.mem_cons_self, rfl⟩, ?_⟩
    have expiry : startOfYear 1999 + (startOfYear 2000 - startOfYear 1999) = startOfYear 2000 := by
      omega
    exact congrArg (pairingText "a1") expiry

/-- The claimer it was issued for is bound to it. -/
theorem presented_bound :
    Guarded Bound [] ((machine id).steps {} (presented "a1" 2000)) := by
  refine (accepts_bound_iff Function.injective_id _ (presented_unforged "a1" 2000)).mpr ?_
  refine not_misused_of_fourDigits fun input isInput => ?_
  have fits : 0 ≤ yearOf (startOfYear 2000) ∧ yearOf (startOfYear 2000) ≤ 9999 := by decide +kernel
  have expiry : expiryOf input = startOfYear 2000 := by
    simp only [presented, List.mem_cons, List.not_mem_nil, or_false] at isInput
    rcases isInput with rfl | rfl
    · simp only [expiryOf]
      omega
    · rfl
  rw [FourDigits, expiry]
  exact fits

/-- For the node `a` the last digit of the other node's id is taken for one of the year. -/
theorem presented_unbound :
    ¬ ∀ (mac : String → String) (inputs : List (ℤ × Call)), Function.Injective mac →
      Guarded (Unforged mac) [] ((machine mac).steps {} inputs) →
        Guarded Bound [] ((machine mac).steps {} inputs) := by
  intro always
  rcases always id (presented "a" 12000) Function.injective_id (presented_unforged "a" 12000) with
    ⟨-, bound, -⟩
  have genuine : pairingText "a1" (startOfYear 2000) = pairingText "a" (startOfYear 12000) := by
    decide +kernel
  have isNonempty : pairingText "a" (startOfYear 12000) ≠ "" := by decide +kernel
  have isFresh : ¬ startOfYear 12000 ≤ startOfYear 1999 := by decide +kernel
  have accepted : ((machine id).step {} (startOfYear 1999, .accept
      { value := pairingText "a1" (startOfYear 2000), node := "a"
        expiresAt := startOfYear 12000 } "a")).2 = .accepted (.ok ()) := by
    simp [machine, PairingService.accept, isNonempty, isFresh, genuine]
  rcases bound _ _ _ rfl accepted with ⟨-, -, ⟨issuing, isBefore, issued⟩, -⟩
  cases List.mem_singleton.mp isBefore
  injection issued with same
  have node : "a1" = "a" := congrArg Token.node same
  revert node
  decide

end Aa.Sync.Identity
