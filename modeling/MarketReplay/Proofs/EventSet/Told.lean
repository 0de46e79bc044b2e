/-
What an event set tells, said without the order in which it is read.

Reading a set goes over it three times: for an own log outside the vocabulary,
for a transfer into the marketplace, and for the action logs, of which the
first malformed one ends the reading. `Tells` says what comes of it by naming
the logs that decide: the first of some kind (`IsFirst`), or that there is
none. Which logs are of that kind is told by each log on its own, so a log
that is of no kind which matters may stand anywhere behind the first one
(`summarize_insert`).

The payment of an action is the log's own, where it names a token, and
otherwise that of the first transfer into the marketplace, whoever emitted it.
-/
import MarketReplay.Proofs.Action.Reading
import Mathlib.Data.List.Forall2

namespace MarketReplay

-- ==================================================== the first of its kind

/-- The element is the first of the list that has the property. -/
inductive IsFirst {α : Type} (P : α → Prop) : List α → α → Prop
  | here {a : α} {list : List α} (h : P a) : IsFirst P (a :: list) a
  | behind {a b : α} {list : List α} (h : ¬ P a) (hrest : IsFirst P list b) :
      IsFirst P (a :: list) b

namespace IsFirst

variable {α : Type} {P : α → Prop} {a b : α} {list : List α}

/-- The first of its kind is in the list, and of that kind. -/
theorem mem (h : IsFirst P list a) : a ∈ list ∧ P a := by
  induction h with
  | here h => exact ⟨List.mem_cons_self, h⟩
  | behind _ _ ih => exact ⟨List.mem_cons_of_mem _ ih.1, ih.2⟩

/-- The first of its kind is the head, or else the first behind a head of
another kind. -/
theorem cons_iff : IsFirst P (a :: list) b ↔ P a ∧ a = b ∨ ¬ P a ∧ IsFirst P list b := by
  constructor
  · intro h
    cases h with
    | here h => exact .inl ⟨h, rfl⟩
    | behind h hrest => exact .inr ⟨h, hrest⟩
  · intro h
    rcases h with ⟨h, rfl⟩ | ⟨h, hrest⟩
    · exact .here h
    · exact .behind h hrest

/-- If any element has the property, one of them is the first. -/
theorem exists_of_mem (hmem : a ∈ list) (h : P a) : ∃ b, IsFirst P list b := by
  induction list with
  | nil => cases hmem
  | cons b list ih =>
      by_cases hb : P b
      · exact ⟨b, .here hb⟩
      · cases hmem with
        | head => exact absurd h hb
        | tail _ hrest =>
            obtain ⟨c, hc⟩ := ih hrest
            exact ⟨c, .behind hb hc⟩

end IsFirst

section

variable {α β γ ε : Type}

/-- What is found is what the first element has that has anything. -/
theorem findSome?_eq_some_iff_isFirst {f : α → Option β} {Has : α → β → Prop}
    (hf : ∀ a b, f a = some b ↔ Has a b) {list : List α} {b : β} :
    list.findSome? f = some b ↔ ∃ a, IsFirst (fun a => ∃ b, Has a b) list a ∧ Has a b := by
  simp only [← hf]
  induction list with
  | nil => exact ⟨nofun, nofun⟩
  | cons a list ih =>
      simp only [IsFirst.cons_iff, List.findSome?_cons]
      cases h : f a with
      | none => simp [ih]
      | some c => simp [h]

/-- A search finds the first of its kind. -/
theorem find?_eq_some_iff_isFirst {p : α → Bool} {P : α → Prop}
    (hp : ∀ a, p a = true ↔ P a) {list : List α} {a : α} :
    list.find? p = some a ↔ IsFirst P list a := by
  simp only [← funext fun a => propext (hp a)]
  induction list with
  | nil => exact ⟨nofun, nofun⟩
  | cons b list ih =>
      rw [IsFirst.cons_iff, List.find?_cons]
      cases h : p b with
      | false => simp [ih]
      | true => simp

/-- The element is picked, and cannot be read for some cause. -/
def Faults (pick : α → Option β) (f : β → Except ε γ) (a : α) (cause : ε) : Prop :=
  ∃ b, pick a = some b ∧ f b = .error cause

/-- A reading of all that is picked from a list fails with the cause of the
first element that is picked and cannot be read. -/
theorem mapM_filterMap_eq_error_iff {pick : α → Option β} {f : β → Except ε γ}
    {list : List α} {error : ε} :
    (list.filterMap pick).mapM f = .error error
      ↔ ∃ a, IsFirst (fun a => ∃ cause, Faults pick f a cause) list a
        ∧ Faults pick f a error := by
  induction list with
  | nil => exact ⟨nofun, nofun⟩
  | cons a list ih =>
      simp only [IsFirst.cons_iff]
      cases hpick : pick a with
      | none =>
          have hsound : ∀ cause, ¬ Faults pick f a cause := by simp [Faults, hpick]
          simp [hpick, hsound, ih]
      | some b =>
          rw [List.filterMap_cons_some hpick, List.mapM_cons]
          cases hread : f b with
          | error cause =>
              have hfaults : ∀ e, Faults pick f a e ↔ cause = e := by
                simp [Faults, hpick, hread]
              simp [hfaults, bind, Except.bind]
          | ok c =>
              have hsound : ∀ cause, ¬ Faults pick f a cause := by
                simp [Faults, hpick, hread]
              simp only [hsound, exists_false, not_false_eq_true, false_and, true_and,
                false_or, ← ih]
              cases (list.filterMap pick).mapM f <;>
                simp [bind, Except.bind, pure, Except.pure]

/-- A reading of all that was picked from a list answers one result for each
element that was picked, in order. -/
theorem mapM_filterMap_eq_ok_iff {pick : α → Option β} {f : β → Except ε γ}
    {list : List α} {results : List γ} :
    (list.filterMap pick).mapM f = .ok results
      ↔ List.Forall₂ (fun a c => ∃ b, pick a = some b ∧ f b = .ok c)
        (list.filter fun a => (pick a).isSome) results := by
  induction list generalizing results with
  | nil => cases results <;> simp [pure, Except.pure]
  | cons a list ih =>
      cases hpick : pick a with
      | none => simp [hpick, ih]
      | some b =>
          rw [List.filterMap_cons_some hpick, List.mapM_cons,
            List.filter_cons_of_pos (by rw [hpick]; rfl)]
          cases hread : f b with
          | error e => cases results <;> simp [hpick, hread, bind, Except.bind]
          | ok c =>
              cases hrest : (list.filterMap pick).mapM f with
              | error e =>
                  cases results <;> simp [hpick, hread, hrest, ← ih, bind, Except.bind]
              | ok rest =>
                  cases results <;>
                    simp [hpick, hread, hrest, ← ih, bind, Except.bind, pure, Except.pure]

end

namespace EventSet

variable (marketplace : Marketplace)

-- ========================================================== what logs decide

/-- The marketplace emits the event, and it is outside the vocabulary. -/
def IsUnknown (event : Event) : Prop :=
  event.address = marketplace.address ∧ classOf event = .unknown

/-- The action that the marketplace reports by the event, if it reports one. -/
def actionOf? (event : Event) : Option ActionKind :=
  if event.address = marketplace.address then
    match classOf event with
    | .action kind => some kind
    | _ => none
  else none

/-- The marketplace reports an action by the event, and its topics cannot be
read. -/
def Malformed (event : Event) (cause : TopicError) : Prop :=
  ∃ kind, actionOf? marketplace event = some kind
    ∧ Layout.read ⟨event.topics⟩ kind = .error cause

/-- Where a transfer log of some layout names the receiver. -/
def ReceiverAt (topics : Topics) (place : Nat) : TransferLayout → Prop
  | .single => place = 3
  | .multi => place + 1 = topics.texts.length

/-- The event is a transfer log, of any emitter, that pays into the
marketplace, and says in which token. -/
def TransfersIn (event : Event) (paid : String × Nat) : Prop :=
  ∃ layout place, classOf event = .transfer layout
    ∧ ReceiverAt ⟨event.topics⟩ place layout
    ∧ Topics.address ⟨event.topics⟩ place = .ok marketplace.address
    ∧ Topics.text ⟨event.topics⟩ 0 = .ok paid.1
    ∧ Topics.wordOrZero ⟨event.topics⟩ 1 = .ok paid.2

/-- What an action log of a set is paid in. -/
inductive PaidIn (set : List Event) (event : Event) (kind : ActionKind) :
    Option String → Option Nat → Prop
  /-- It names a token itself. -/
  | named {token : String} {nonce : Option Nat}
      (h : Layout.Names ⟨event.topics⟩ kind.paymentPlace (some token) nonce) :
      PaidIn set event kind (some token) nonce
  /-- It names none, and the first transfer into the marketplace does. -/
  | transferred {transfer : Event} {token : String} {nonce : Nat}
      (h : Layout.Names ⟨event.topics⟩ kind.paymentPlace none none)
      (hfirst : IsFirst (fun e => ∃ paid, TransfersIn marketplace e paid) set transfer)
      (hpaid : TransfersIn marketplace transfer (token, nonce)) :
      PaidIn set event kind (some token) (some nonce)
  /-- It names none, and nothing is transferred into the marketplace. -/
  | unsaid (h : Layout.Names ⟨event.topics⟩ kind.paymentPlace none none)
      (hnone : ∀ e ∈ set, ∀ paid, ¬ TransfersIn marketplace e paid) :
      PaidIn set event kind none none

/-- What an action log of a set that starts with `head` reports: the payload
of its topics, the payment, and the stamp of the set. -/
inductive Reports (head : Event) (set : List Event) (event : Event) : ActionSummary → Prop
  | action {kind : ActionKind} {reading : Reading} {token : Option String}
      {nonce : Option Nat} (hkind : actionOf? marketplace event = some kind)
      (hread : Layout.read ⟨event.topics⟩ kind = .ok reading)
      (hpaid : PaidIn marketplace set event kind token nonce) :
      Reports head set event {
        txHash := head.txHash
        timestamp := head.timestamp
        marketplaceKey := marketplace.key
        paymentToken := token
        paymentNonce := nonce
        action := reading.action }

/-- What comes of reading a set that starts with `head`. -/
inductive Tells (head : Event) (set : List Event) :
    Except SummaryError (List ActionSummary) → Prop
  /-- The first own log outside the vocabulary is named, whatever else there
  is. -/
  | unknown {event : Event} (hfirst : IsFirst (IsUnknown marketplace) set event) :
      Tells head set (.error (.unknownAction event.identifier head.txHash))
  /-- There is none, and the first malformed action log is named. -/
  | malformed {event : Event} {cause : TopicError}
      (hknown : ∀ e ∈ set, ¬ IsUnknown marketplace e)
      (hfirst : IsFirst (fun e => ∃ cause, Malformed marketplace e cause) set event)
      (hcause : Malformed marketplace event cause) :
      Tells head set (.error (.decode event.identifier head.txHash cause))
  /-- There is neither, and each action log reports its action, in order. -/
  | actions {summaries : List ActionSummary}
      (hknown : ∀ e ∈ set, ¬ IsUnknown marketplace e)
      (hreadable : ∀ e ∈ set, ∀ cause, ¬ Malformed marketplace e cause)
      (hreports : List.Forall₂ (Reports marketplace head set)
        (set.filter fun e => (actionOf? marketplace e).isSome) summaries) :
      Tells head set (.ok summaries)

/-- The event decides nothing in a set that it does not begin: it is of
another emitter and no transfer, or the marketplace's own and ignored. -/
def IsBystander (event : Event) : Prop :=
  (event.address ≠ marketplace.address ∧ ∀ layout, classOf event ≠ .transfer layout)
    ∨ event.address = marketplace.address ∧ classOf event = .ignored

-- ================================================== the reading, log by log

variable {marketplace} {head event : Event} {set : List Event}
  {payment : Option (String × Nat)}

/-- Whether a log tells of an action is up to the log alone. -/
theorem actionLogs_eq (set : List Event) :
    actionLogs marketplace set
      = set.filterMap fun e => (actionOf? marketplace e).map (e, ·) := by
  unfold actionLogs ownLogs
  rw [List.filterMap_filter]
  refine congrArg (List.filterMap · set) (funext fun e => ?_)
  unfold actionOf?
  by_cases hown : e.address = marketplace.address
  · rw [if_pos (beq_iff_eq.2 hown), if_pos hown]
    cases classOf e <;> rfl
  · rw [if_neg (mt beq_iff_eq.1 hown), if_neg hown]
    rfl

/-- The log that is reported as unknown is the first own log outside the
vocabulary. -/
theorem firstUnknown?_eq_some_iff :
    firstUnknown? marketplace set = some event
      ↔ IsFirst (IsUnknown marketplace) set event := by
  unfold firstUnknown? ownLogs
  rw [List.find?_filter]
  exact find?_eq_some_iff_isFirst fun e => by simp [IsUnknown]

/-- A transfer pays into the marketplace if its receiver is the marketplace,
and token and nonce can be read. -/
theorem transferInto?_eq_some_iff {layout : TransferLayout} {receiver : String}
    {topics : Topics} {paid : String × Nat} :
    Layout.transferInto? topics receiver layout = some paid
      ↔ ∃ place, ReceiverAt topics place layout ∧ topics.address place = .ok receiver
        ∧ topics.text 0 = .ok paid.1 ∧ topics.wordOrZero 1 = .ok paid.2 := by
  have htoOption : ∀ {α : Type} {read : Topics.Read α} {a : α},
      read.toOption = some a ↔ read = .ok a := by
    intro α read a
    cases read <;> simp [Except.toOption]
  obtain ⟨token, nonce⟩ := paid
  unfold Layout.transferInto?
  cases layout with
  | single => simp [ReceiverAt, Option.bind_eq_some_iff, htoOption, guard]
  | multi =>
      obtain ⟨_ | ⟨first, others⟩⟩ := topics <;>
        simp [ReceiverAt, Option.bind_eq_some_iff, htoOption, guard]

/-- The payment of a set is that of the first transfer into the marketplace. -/
theorem transferPayment?_eq_some_iff {paid : String × Nat} :
    transferPayment? marketplace set = some paid
      ↔ ∃ e, IsFirst (fun e => ∃ paid, TransfersIn marketplace e paid) set e
        ∧ TransfersIn marketplace e paid := by
  refine findSome?_eq_some_iff_isFirst fun e paid => ?_
  unfold TransfersIn
  cases classOf e <;> simp [transferInto?_eq_some_iff]

/-- A set without a transfer into the marketplace pays nothing. -/
theorem transferPayment?_eq_none_iff :
    transferPayment? marketplace set = none
      ↔ ∀ e ∈ set, ∀ paid, ¬ TransfersIn marketplace e paid := by
  constructor
  · intro hnone e hmem paid hpays
    have hexists : ∃ first, IsFirst (fun e => ∃ paid, TransfersIn marketplace e paid)
        set first := IsFirst.exists_of_mem hmem ⟨paid, hpays⟩
    obtain ⟨first, hfirst⟩ := hexists
    obtain ⟨other, hother⟩ := hfirst.mem.2
    cases hnone.symm.trans (transferPayment?_eq_some_iff.2 ⟨first, hfirst, hother⟩)
  · intro hnone
    refine Option.eq_none_iff_forall_ne_some.2 fun paid hsome => ?_
    obtain ⟨first, hfirst, hpays⟩ := transferPayment?_eq_some_iff.1 hsome
    exact hnone first hfirst.mem.1 paid hpays

-- =========================================================== one action log

/-- What an action log is paid in is what it names, or else what the transfers
of its set pay. -/
theorem paidIn_iff {kind : ActionKind} {reading : Reading} {token : Option String}
    {nonce : Option Nat}
    (h : Layout.NamedIn ⟨event.topics⟩ kind.paymentPlace reading) :
    PaidIn marketplace set event kind token nonce
      ↔ (payFrom (transferPayment? marketplace set) reading).paymentToken = token
        ∧ (payFrom (transferPayment? marketplace set) reading).paymentNonce = nonce := by
  constructor
  · intro hpaid
    cases hpaid with
    | named hnames =>
        obtain ⟨htoken, hnonce⟩ := h.unique hnames
        rw [payFrom_named _ htoken]
        exact ⟨htoken, hnonce⟩
    | transferred hnames hfirst hpays =>
        rw [transferPayment?_eq_some_iff.2 ⟨_, hfirst, hpays⟩,
          payFrom_unnamed (h.unique hnames).1]
        exact ⟨rfl, rfl⟩
    | unsaid hnames hnone =>
        rw [transferPayment?_eq_none_iff.2 hnone, payFrom_none]
        exact h.unique hnames
  · intro hpaid
    obtain ⟨rfl, rfl⟩ := hpaid
    unfold Layout.NamedIn at h
    -- the log names a token, or the transfers pay, or nobody says anything
    cases hnamed : reading.paymentToken with
    | some token =>
        rw [payFrom_named _ hnamed, hnamed]
        rw [hnamed] at h
        exact .named h
    | none =>
        rw [hnamed] at h
        have hnonce := h.nonce_eq_none
        rw [hnonce] at h
        cases hpaid : transferPayment? marketplace set with
        | some paid =>
            obtain ⟨transfer, hfirst, hpays⟩ := transferPayment?_eq_some_iff.1 hpaid
            rw [payFrom_unnamed hnamed]
            exact .transferred h hfirst hpays
        | none =>
            rw [payFrom_none, hnamed, hnonce]
            exact .unsaid h (transferPayment?_eq_none_iff.1 hpaid)

/-- The action log that an event is, with its kind. -/
def actionLog? (marketplace : Marketplace) (event : Event) : Option (Event × ActionKind) :=
  (actionOf? marketplace event).map (event, ·)

/-- An action log is a log beside the kind of the action that it tells of. -/
theorem actionLog?_eq_some_iff {log : Event × ActionKind} :
    actionLog? marketplace event = some log
      ↔ event = log.1 ∧ actionOf? marketplace event = some log.2 := by
  obtain ⟨e, kind⟩ := log
  unfold actionLog?
  cases actionOf? marketplace event <;> simp

/-- An action log is named for what is wrong with its topics. -/
theorem faults_iff {error : SummaryError} :
    Faults (actionLog? marketplace) (summarizeLog marketplace head payment) event error
      ↔ ∃ cause, Malformed marketplace event cause
        ∧ error = .decode event.identifier head.txHash cause := by
  constructor
  · intro hfaults
    obtain ⟨⟨_, kind⟩, hlog, hfault⟩ := hfaults
    obtain ⟨rfl, hkind⟩ := actionLog?_eq_some_iff.1 hlog
    unfold summarizeLog at hfault
    cases hread : Layout.read ⟨event.topics⟩ kind with
    | error cause =>
        rw [hread] at hfault
        exact ⟨cause, ⟨kind, hkind, hread⟩, (Except.error.inj hfault).symm⟩
    | ok reading => rw [hread] at hfault; cases hfault
  · intro hmalformed
    obtain ⟨cause, ⟨kind, hkind, hread⟩, rfl⟩ := hmalformed
    refine ⟨(event, kind), actionLog?_eq_some_iff.2 ⟨rfl, hkind⟩, ?_⟩
    unfold summarizeLog
    rw [hread]

/-- What is read from an action log is what it reports. -/
theorem reports_iff {summary : ActionSummary} :
    (∃ log, actionLog? marketplace event = some log
        ∧ summarizeLog marketplace head (transferPayment? marketplace set) log = .ok summary)
      ↔ Reports marketplace head set event summary := by
  constructor
  · intro hreads
    obtain ⟨⟨_, kind⟩, hlog, hsummary⟩ := hreads
    obtain ⟨rfl, hkind⟩ := actionLog?_eq_some_iff.1 hlog
    unfold summarizeLog at hsummary
    cases hread : Layout.read ⟨event.topics⟩ kind with
    | error cause => rw [hread] at hsummary; cases hsummary
    | ok reading =>
        rw [hread] at hsummary
        have hnamed := Layout.namedIn_read _ kind reading hread
        rw [← Except.ok.inj hsummary, action_payFrom]
        exact .action hkind hread ((paidIn_iff hnamed).2 ⟨rfl, rfl⟩)
  · intro hreports
    obtain ⟨hkind, hread, hpaid⟩ := hreports
    refine ⟨(event, _), actionLog?_eq_some_iff.2 ⟨rfl, hkind⟩, ?_⟩
    obtain ⟨rfl, rfl⟩ := (paidIn_iff (Layout.namedIn_read _ _ _ hread)).1 hpaid
    unfold summarizeLog
    rw [hread, ← action_payFrom (transferPayment? marketplace set)]

-- ============================================================ the whole set

variable {rest : List Event}

/-- The first unknown own log ends the reading. -/
theorem summarize_of_unknown (h : IsFirst (IsUnknown marketplace) (head :: rest) event) :
    summarize marketplace (head :: rest)
      = .error (.unknownAction event.identifier head.txHash) := by
  unfold summarize
  dsimp only
  rw [firstUnknown?_eq_some_iff.2 h]

/-- Without one, the action logs are read in order. -/
theorem summarize_of_known (h : firstUnknown? marketplace (head :: rest) = none) :
    summarize marketplace (head :: rest)
      = ((head :: rest).filterMap (actionLog? marketplace)).mapM
          (summarizeLog marketplace head (transferPayment? marketplace (head :: rest))) := by
  unfold summarize
  dsimp only
  rw [h, actionLogs_eq]
  rfl

/-- Nothing is reported as unknown if all own logs are within the vocabulary.
-/
theorem firstUnknown?_eq_none_iff :
    firstUnknown? marketplace set = none ↔ ∀ e ∈ set, ¬ IsUnknown marketplace e := by
  rw [Option.eq_none_iff_forall_ne_some]
  simp only [ne_eq, firstUnknown?_eq_some_iff]
  constructor
  · intro h e hmem hunknown
    obtain ⟨first, hfirst⟩ := IsFirst.exists_of_mem hmem hunknown
    exact h first hfirst
  · intro h e hfirst
    exact h e hfirst.mem.1 hfirst.mem.2

/-- The reading of the action logs fails at the first malformed one. -/
theorem logs_eq_error_iff {error : SummaryError} :
    (set.filterMap (actionLog? marketplace)).mapM (summarizeLog marketplace head payment)
        = .error error
      ↔ ∃ event cause, IsFirst (fun e => ∃ cause, Malformed marketplace e cause) set event
        ∧ Malformed marketplace event cause
        ∧ error = .decode event.identifier head.txHash cause := by
  have hexists : ∀ e, (∃ error,
      Faults (actionLog? marketplace) (summarizeLog marketplace head payment) e error)
        ↔ ∃ cause, Malformed marketplace e cause := by
    intro e
    simp only [faults_iff]
    exact ⟨fun ⟨_, cause, h, _⟩ => ⟨cause, h⟩, fun ⟨cause, h⟩ => ⟨_, cause, h, rfl⟩⟩
  rw [mapM_filterMap_eq_error_iff]
  simp only [hexists]
  simp only [faults_iff, exists_and_left]

/-- It succeeds with what each of them reports. -/
theorem logs_eq_ok_iff {summaries : List ActionSummary} :
    (set.filterMap (actionLog? marketplace)).mapM
        (summarizeLog marketplace head (transferPayment? marketplace set)) = .ok summaries
      ↔ List.Forall₂ (Reports marketplace head set)
        (set.filter fun e => (actionOf? marketplace e).isSome) summaries := by
  rw [mapM_filterMap_eq_ok_iff]
  simp only [reports_iff]
  simp only [actionLog?, Option.isSome_map]

/-- The reading of a set is what the set tells. -/
theorem tells_summarize (marketplace : Marketplace) (head : Event) (rest : List Event) :
    Tells marketplace head (head :: rest) (summarize marketplace (head :: rest)) := by
  cases hunknown : firstUnknown? marketplace (head :: rest) with
  | some event =>
      have hfirst := firstUnknown?_eq_some_iff.1 hunknown
      rw [summarize_of_unknown hfirst]
      exact .unknown hfirst
  | none =>
      have hknown := firstUnknown?_eq_none_iff.1 hunknown
      rw [summarize_of_known hunknown]
      cases hread : ((head :: rest).filterMap (actionLog? marketplace)).mapM
          (summarizeLog marketplace head (transferPayment? marketplace (head :: rest))) with
      | error error =>
          obtain ⟨event, cause, hfirst, hcause, rfl⟩ := logs_eq_error_iff.1 hread
          exact .malformed hknown hfirst hcause
      | ok summaries =>
          refine .actions hknown (fun e hmem cause hcause => ?_) (logs_eq_ok_iff.1 hread)
          have hexists : ∃ first, IsFirst (fun e => ∃ cause, Malformed marketplace e cause)
              (head :: rest) first := IsFirst.exists_of_mem hmem ⟨cause, hcause⟩
          obtain ⟨first, hfirst⟩ := hexists
          obtain ⟨_, hcause⟩ := hfirst.mem.2
          cases hread.symm.trans (logs_eq_error_iff.2 ⟨first, _, hfirst, hcause, rfl⟩)

/-- What a set tells is the reading of it. -/
theorem summarize_of_tells {result : Except SummaryError (List ActionSummary)}
    (h : Tells marketplace head (head :: rest) result) :
    summarize marketplace (head :: rest) = result := by
  cases h with
  | unknown hfirst => exact summarize_of_unknown hfirst
  | malformed hknown hfirst hcause =>
      rw [summarize_of_known (firstUnknown?_eq_none_iff.2 hknown)]
      exact logs_eq_error_iff.2 ⟨_, _, hfirst, hcause, rfl⟩
  | actions hknown _ hreports =>
      rw [summarize_of_known (firstUnknown?_eq_none_iff.2 hknown)]
      exact logs_eq_ok_iff.2 hreports

-- ============================================================= bystanders

/-- Nothing that is looked for in a set is found at a bystander. -/
theorem IsBystander.idle (h : IsBystander marketplace event) :
    ¬ IsUnknown marketplace event ∧ actionOf? marketplace event = none
      ∧ ∀ paid, ¬ TransfersIn marketplace event paid := by
  rcases h with ⟨hother, hclass⟩ | ⟨hown, hclass⟩
  · refine ⟨fun hunknown => hother hunknown.1, if_neg hother, fun paid hpays => ?_⟩
    obtain ⟨layout, -, hlayout, -⟩ := hpays
    exact hclass layout hlayout
  · refine ⟨fun hunknown => ?_, ?_, fun paid hpays => ?_⟩
    · cases hclass.symm.trans hunknown.2
    · unfold actionOf?
      rw [if_pos hown, hclass]
    · obtain ⟨layout, -, hlayout, -⟩ := hpays
      cases hclass.symm.trans hlayout

/-- The first unknown log of two parts is that of the front part, if it has
one. -/
theorem firstUnknown?_append (set more : List Event) :
    firstUnknown? marketplace (set ++ more)
      = (firstUnknown? marketplace set).or (firstUnknown? marketplace more) := by
  unfold firstUnknown? ownLogs
  rw [List.filter_append, List.find?_append]

/-- The action logs of two parts stand in the order of the parts. -/
theorem actionLogs_append (set more : List Event) :
    actionLogs marketplace (set ++ more)
      = actionLogs marketplace set ++ actionLogs marketplace more := by
  unfold actionLogs ownLogs
  rw [List.filter_append, List.filterMap_append]

/-- The transfer that counts is that of the front part, if it has one. -/
theorem transferPayment?_append (set more : List Event) :
    transferPayment? marketplace (set ++ more)
      = (transferPayment? marketplace set).or (transferPayment? marketplace more) := by
  unfold transferPayment?
  rw [List.findSome?_append]

/-- Bystanders tell nothing, wherever they stand behind the first event. -/
theorem summarize_insert {before inserted behind : List Event}
    (h : ∀ e ∈ inserted, IsBystander marketplace e) :
    summarize marketplace (head :: (before ++ inserted ++ behind))
      = summarize marketplace (head :: (before ++ behind)) := by
  have hunknown : firstUnknown? marketplace inserted = none :=
    firstUnknown?_eq_none_iff.2 fun e hmem => (h e hmem).idle.1
  have hactions : actionLogs marketplace inserted = [] := by
    rw [actionLogs_eq, List.filterMap_eq_nil_iff]
    intro e hmem
    rw [(h e hmem).idle.2.1]
    rfl
  have hpays : transferPayment? marketplace inserted = none :=
    transferPayment?_eq_none_iff.2 fun e hmem => (h e hmem).idle.2.2
  unfold summarize
  simp only [← List.cons_append, firstUnknown?_append, actionLogs_append,
    transferPayment?_append, hunknown, hactions, hpays, Option.or_none, List.append_nil]

/-- The first unknown own log of a set ends its reading, or else the first
malformed action log, or else each action log reports its action, in order and
paid for by what it names or by the first transfer into the marketplace; and
events of other emitters that are no transfers, and ignored own ones, change
nothing behind the first event. -/
theorem summarize_told (marketplace : Marketplace) (head : Event) (rest : List Event) :
    (∀ result, summarize marketplace (head :: rest) = result
      ↔ Tells marketplace head (head :: rest) result)
    ∧ ∀ before inserted behind : List Event, rest = before ++ behind →
      (∀ e ∈ inserted, IsBystander marketplace e) →
      summarize marketplace (head :: (before ++ inserted ++ behind))
        = summarize marketplace (head :: rest) := by
  refine ⟨fun result => ⟨fun hresult => ?_, summarize_of_tells⟩, ?_⟩
  · rw [← hresult]
    exact tells_summarize marketplace head rest
  · intro before inserted behind hrest hidle
    rw [hrest]
    exact summarize_insert hidle

end EventSet

end MarketReplay
