import Mathlib
import ShaderMend.Notice

/-!
# Dispatchers and a receiver that take turns

Any number of dispatchers share a channel with one receiver. Each takes one atomic step at a
time, and the steps of all may come in any order. The flag of the channel is a token: while
somebody receives it is up exactly if one notice is queued, or received and not completed, or
one dispatch has raised it and not sent yet.

* `Exchange.dispatch_eq_replay` — dispatching at once is three steps in a row.
* `Exchange.sound_replay` — the invariant: there is one token at most.
* `Exchange.notices_of_replay` — a dispatch sends its notice exactly if it finds the exchange
  idle, and what is received is what was sent.

A received notice may outlive the receiver. When it is completed then, it lowers a flag that
another dispatch may have raised; what remains is that nothing is sent any more.
-/

namespace ShaderMend

/-! ### Parts of the channel -/

namespace Channel

/-- One dispatcher less. -/
def dropDispatcher (channel : Channel) : Channel :=
  { channel with dispatchers := channel.dispatchers - 1 }

/-- Completes one of the notices received, which lowers the flag. -/
def completeAt (channel : Channel) (index : Nat) : Channel :=
  if index < channel.pending.length then
    { channel with pending := channel.pending.eraseIdx index, inFlight := false }
  else channel

theorem dropDispatchers_eq (channel : Channel) :
    channel.dropDispatchers = Nat.repeat dropDispatcher channel.dispatchers channel := by
  have hrepeat : ∀ count, Nat.repeat dropDispatcher count channel
      = { channel with dispatchers := channel.dispatchers - count } := by
    intro count
    induction count with
    | zero => rfl
    | succ count ih => simp [Nat.repeat, ih, dropDispatcher, Nat.sub_sub]
  rw [hrepeat, Nat.sub_self]
  rfl

theorem complete_eq (channel : Channel) : channel.complete = channel.completeAt 0 := by
  obtain ⟨inFlight, queued, pending, dispatchers, receiving⟩ := channel
  cases pending <;> rfl

end Channel

/-! ### Turns -/

/-- A dispatch: its number and its notice. -/
structure Dispatch where
  number : Nat
  notice : Notice
  deriving DecidableEq, Repr

/-- A dispatch that is over, and whether it sent its notice. -/
structure Verdict where
  dispatch : Dispatch
  sent : Bool
  deriving DecidableEq, Repr

/-- A channel, the dispatches on it and what came of them. -/
structure Exchange where
  channel : Channel
  /-- The dispatches that have raised the flag and not sent yet. -/
  claimed : List Dispatch
  /-- Those whose notice was not taken, and that have not lowered the flag yet. -/
  refused : List Dispatch
  /-- Those that are over, in the order of their ends. -/
  verdicts : List Verdict
  /-- The notices received, in their order. -/
  received : List Notice
  /-- The number of the next dispatch. -/
  nextNumber : Nat
  deriving DecidableEq, Repr

namespace Exchange

/-- A new channel. -/
def fresh : Exchange :=
  ⟨.fresh, [], [], [], [], 0⟩

/-- An atomic step of some dispatcher or of the receiving side. -/
inductive Step where
  /-- A dispatch begins: it raises the flag, or finds it up. -/
  | claim (notice : Notice)
  /-- The dispatch of the number sends its notice. -/
  | send (number : Nat)
  /-- The dispatch of the number lowers the flag, since its notice was not taken. -/
  | release (number : Nat)
  | clone
  | dropDispatcher
  | receive
  | complete (index : Nat)
  | dropReceiver
  deriving DecidableEq, Repr

/-- A dispatch begins. -/
def claim (exchange : Exchange) (notice : Notice) : Exchange :=
  let dispatch : Dispatch := ⟨exchange.nextNumber, notice⟩
  match exchange.channel.claim? with
  | some channel =>
      { exchange with
        channel
        claimed := exchange.claimed ++ [dispatch]
        nextNumber := exchange.nextNumber + 1 }
  | none =>
      { exchange with
        verdicts := exchange.verdicts ++ [⟨dispatch, false⟩]
        nextNumber := exchange.nextNumber + 1 }

/-- A dispatch sends its notice. If this is taken the dispatch is over. -/
def send (exchange : Exchange) (dispatch : Dispatch) : Exchange :=
  match exchange.channel.send dispatch.notice with
  | (channel, .delivered) =>
      { exchange with
        channel
        claimed := exchange.claimed.erase dispatch
        verdicts := exchange.verdicts ++ [⟨dispatch, true⟩] }
  | (channel, _) =>
      { exchange with
        channel
        claimed := exchange.claimed.erase dispatch
        refused := exchange.refused ++ [dispatch] }

/-- A dispatch lowers the flag and is over. -/
def release (exchange : Exchange) (dispatch : Dispatch) : Exchange :=
  { exchange with
    channel := exchange.channel.release
    refused := exchange.refused.erase dispatch
    verdicts := exchange.verdicts ++ [⟨dispatch, false⟩] }

/-- The receiver looks for a notice. -/
def receive (exchange : Exchange) : Exchange :=
  { exchange with
    channel := exchange.channel.receive.1
    received := exchange.received ++ exchange.channel.receive.2.toList }

/-- The exchange after a step. Without dispatchers no dispatch begins, and a dispatch that
does not exist takes no step. -/
def step (exchange : Exchange) : Step → Exchange
  | .claim notice => if exchange.channel.dispatchers = 0 then exchange else exchange.claim notice
  | .send number =>
      match exchange.claimed.find? (·.number = number) with
      | some dispatch => exchange.send dispatch
      | none => exchange
  | .release number =>
      match exchange.refused.find? (·.number = number) with
      | some dispatch => exchange.release dispatch
      | none => exchange
  | .clone =>
      if exchange.channel.dispatchers = 0 then exchange
      else { exchange with channel := exchange.channel.clone }
  | .dropDispatcher => { exchange with channel := exchange.channel.dropDispatcher }
  | .receive => exchange.receive
  | .complete index => { exchange with channel := exchange.channel.completeAt index }
  | .dropReceiver => { exchange with channel := exchange.channel.dropReceiver }

/-- The exchange after a row of steps. -/
def replay (steps : List Step) (exchange : Exchange) : Exchange :=
  steps.foldl step exchange

/-- Whether no notice is queued or waits to be completed, and no dispatch is about to send. -/
def isIdle (exchange : Exchange) : Bool :=
  exchange.channel.queued.isNone && exchange.channel.pending.isEmpty && exchange.claimed.isEmpty

/-- The notices that were sent, in their order. -/
def sent (exchange : Exchange) : List Notice :=
  (exchange.verdicts.filter Verdict.sent).map fun verdict => verdict.dispatch.notice

/-- All dispatches, over or not. -/
def dispatches (exchange : Exchange) : List Dispatch :=
  exchange.claimed ++ exchange.refused ++ exchange.verdicts.map Verdict.dispatch

/-! ### What a step comes to -/

/-- What a step comes to that changes anything. -/
inductive Stepped (exchange : Exchange) : Step → Exchange → Prop where
  | claimed {notice : Notice} (hopen : exchange.channel.dispatchers ≠ 0)
      (hdown : exchange.channel.inFlight = false) :
      Stepped exchange (.claim notice)
        { exchange with
          channel := { exchange.channel with inFlight := true }
          claimed := exchange.claimed ++ [⟨exchange.nextNumber, notice⟩]
          nextNumber := exchange.nextNumber + 1 }
  | dropped {notice : Notice} (hopen : exchange.channel.dispatchers ≠ 0)
      (hup : exchange.channel.inFlight = true) :
      Stepped exchange (.claim notice)
        { exchange with
          verdicts := exchange.verdicts ++ [⟨⟨exchange.nextNumber, notice⟩, false⟩]
          nextNumber := exchange.nextNumber + 1 }
  | sent {dispatch : Dispatch} (hclaimed : dispatch ∈ exchange.claimed)
      (hreceiving : exchange.channel.receiving = true)
      (hroom : exchange.channel.queued = none) :
      Stepped exchange (.send dispatch.number)
        { exchange with
          channel := { exchange.channel with queued := some dispatch.notice }
          claimed := exchange.claimed.erase dispatch
          verdicts := exchange.verdicts ++ [⟨dispatch, true⟩] }
  | refused {dispatch : Dispatch} (hclaimed : dispatch ∈ exchange.claimed)
      (hfailed : exchange.channel.receiving = true → exchange.channel.queued ≠ none) :
      Stepped exchange (.send dispatch.number)
        { exchange with
          claimed := exchange.claimed.erase dispatch
          refused := exchange.refused ++ [dispatch] }
  | released {dispatch : Dispatch} (hrefused : dispatch ∈ exchange.refused) :
      Stepped exchange (.release dispatch.number)
        { exchange with
          channel := { exchange.channel with inFlight := false }
          refused := exchange.refused.erase dispatch
          verdicts := exchange.verdicts ++ [⟨dispatch, false⟩] }
  | counted {next : Step} (dispatchers : Nat) :
      Stepped exchange next
        { exchange with channel := { exchange.channel with dispatchers } }
  | received {notice : Notice} (hreceiving : exchange.channel.receiving = true)
      (hqueued : exchange.channel.queued = some notice) :
      Stepped exchange .receive
        { exchange with
          channel :=
            { exchange.channel with
              queued := none
              pending := exchange.channel.pending ++ [notice] }
          received := exchange.received ++ [notice] }
  | completed {index : Nat} (hpending : index < exchange.channel.pending.length) :
      Stepped exchange (.complete index)
        { exchange with
          channel :=
            { exchange.channel with
              pending := exchange.channel.pending.eraseIdx index
              inFlight := false } }
  | deserted :
      Stepped exchange .dropReceiver
        { exchange with channel := { exchange.channel with receiving := false, queued := none } }

/-- **A step changes nothing, or comes to one of these.** -/
theorem stepped (exchange : Exchange) (next : Step) :
    exchange.step next = exchange ∨ Stepped exchange next (exchange.step next) := by
  cases next with
  | claim notice =>
      simp only [step]
      split
      · exact Or.inl rfl
      · rename_i hopen
        right
        unfold claim Channel.claim?
        cases hflag : exchange.channel.inFlight with
        | true => simpa using Stepped.dropped hopen hflag
        | false => simpa using Stepped.claimed hopen hflag
  | send number =>
      simp only [step]
      cases hfound : exchange.claimed.find? (·.number = number) with
      | none => exact Or.inl rfl
      | some dispatch =>
          right
          have hmem := List.mem_of_find?_eq_some hfound
          have hnumber : dispatch.number = number := by simpa using List.find?_some hfound
          subst hnumber
          unfold send Channel.send
          cases hreceiving : exchange.channel.receiving with
          | false => simpa using Stepped.refused hmem (by simp [hreceiving])
          | true =>
              cases hqueued : exchange.channel.queued with
              | none => simpa [hreceiving] using Stepped.sent hmem hreceiving hqueued
              | some notice => simpa using Stepped.refused hmem (by simp [hqueued])
  | release number =>
      simp only [step]
      cases hfound : exchange.refused.find? (·.number = number) with
      | none => exact Or.inl rfl
      | some dispatch =>
          right
          have hnumber : dispatch.number = number := by simpa using List.find?_some hfound
          subst hnumber
          exact .released (List.mem_of_find?_eq_some hfound)
  | clone =>
      simp only [step]
      split
      · exact Or.inl rfl
      · exact Or.inr (.counted _)
  | dropDispatcher => exact Or.inr (.counted _)
  | receive =>
      simp only [step, receive, Channel.receive]
      cases hreceiving : exchange.channel.receiving with
      | false => simp
      | true =>
          cases hqueued : exchange.channel.queued with
          | none => simp
          | some notice => simpa [hreceiving] using Or.inr (Stepped.received hreceiving hqueued)
  | complete index =>
      simp only [step, Channel.completeAt]
      split
      · rename_i hpending
        exact Or.inr (.completed hpending)
      · exact Or.inl rfl
  | dropReceiver => exact Or.inr .deserted

/-! ### The token -/

/-- What holds of an exchange while somebody receives: the flag is up for one notice or one
dispatch, no notice was refused, and what was sent is received or queued. -/
structure Sound (exchange : Exchange) : Prop where
  token : exchange.channel.queued.toList.length + exchange.channel.pending.length
    + exchange.claimed.length = exchange.channel.inFlight.toNat
  refused : exchange.refused = []
  passed : exchange.received ++ exchange.channel.queued.toList = exchange.sent

theorem sound_fresh : fresh.Sound :=
  ⟨rfl, rfl, rfl⟩

/-- Nobody begins to receive. -/
theorem receiving_of_step {exchange : Exchange} {next : Step}
    (h : (exchange.step next).channel.receiving = true) : exchange.channel.receiving = true := by
  rcases exchange.stepped next with hsame | hstepped
  · rwa [hsame] at h
  · generalize exchange.step next = after at h hstepped
    cases hstepped with
    | deserted => cases h
    | _ => exact h

/-- Where a dispatch is about to send, the channel has room. -/
theorem Sound.room {exchange : Exchange} (h : exchange.Sound) {dispatch : Dispatch}
    (hclaimed : dispatch ∈ exchange.claimed) :
    exchange.channel.queued = none ∧ exchange.channel.pending = [] ∧
      exchange.claimed = [dispatch] ∧ exchange.channel.inFlight = true := by
  have htoken := h.token
  have hlength := List.length_pos_of_mem hclaimed
  have hbound := exchange.channel.inFlight.toNat_le
  have hone : exchange.claimed.length = 1 := by omega
  obtain ⟨only, honly⟩ := List.length_eq_one_iff.mp hone
  rw [honly] at hclaimed
  obtain rfl := List.mem_singleton.mp hclaimed
  refine ⟨?_, ?_, honly, ?_⟩
  · cases hqueued : exchange.channel.queued with
    | none => rfl
    | some notice =>
        rw [hqueued, Option.toList_some, List.length_singleton] at htoken
        omega
  · exact List.length_eq_zero_iff.mp (by omega)
  · cases hflag : exchange.channel.inFlight with
    | true => rfl
    | false =>
        rw [hflag, Bool.toNat_false] at htoken
        omega

/-- **A step keeps the exchange sound**, unless the receiver goes away. -/
theorem Sound.step {exchange : Exchange} (h : exchange.Sound) {next : Step}
    (hreceiving : (exchange.step next).channel.receiving = true) :
    (exchange.step next).Sound := by
  rcases exchange.stepped next with hsame | hstepped
  · rwa [hsame]
  · generalize exchange.step next = after at hreceiving hstepped
    cases hstepped with
    | @claimed notice _ hdown =>
        have htoken := h.token
        rw [hdown, Bool.toNat_false] at htoken
        constructor
        · simp only [List.length_append, List.length_singleton, Bool.toNat_true]
          omega
        · exact h.refused
        · exact h.passed
    | dropped =>
        constructor
        · exact h.token
        · exact h.refused
        · simpa [sent] using h.passed
    | @sent dispatch hclaimed _ hroom =>
        obtain ⟨-, hpending, honly, hflag⟩ := h.room hclaimed
        have hpassed := h.passed
        rw [hroom] at hpassed
        constructor
        · simp [hpending, honly, hflag]
        · exact h.refused
        · simpa [Exchange.sent] using hpassed
    | @refused dispatch hclaimed hfailed =>
        exact absurd (h.room hclaimed).1 (hfailed hreceiving)
    | @released dispatch hrefused =>
        rw [h.refused] at hrefused
        cases hrefused
    | counted dispatchers => exact ⟨h.token, h.refused, h.passed⟩
    | @received notice _ hqueued =>
        have htoken := h.token
        have hpassed := h.passed
        rw [hqueued] at htoken hpassed
        constructor
        · simp only [Option.toList_some, Option.toList_none, List.length_append,
            List.length_singleton, List.length_nil] at htoken ⊢
          omega
        · exact h.refused
        · simpa [Exchange.sent] using hpassed
    | @completed index hpending =>
        have htoken := h.token
        have hbound := exchange.channel.inFlight.toNat_le
        constructor
        · simp only [List.length_eraseIdx_of_lt hpending, Bool.toNat_false]
          omega
        · exact h.refused
        · exact h.passed
    | deserted => cases hreceiving

theorem replay_concat (steps : List Step) (next : Step) (exchange : Exchange) :
    replay (steps ++ [next]) exchange = (replay steps exchange).step next := by
  simp [replay]

/-- **There is one token at most**, as long as somebody receives. -/
theorem sound_replay (steps : List Step) (h : (replay steps fresh).channel.receiving = true) :
    (replay steps fresh).Sound := by
  induction steps using List.reverseRecOn with
  | nil => exact sound_fresh
  | append_singleton steps next ih =>
      rw [replay_concat] at h ⊢
      exact (ih (receiving_of_step h)).step h

/-! ### What becomes of a dispatch -/

/-- The dispatch begins in a row of steps, at this exchange. -/
def Begins (steps : List Step) (before : Exchange) (dispatch : Dispatch) : Prop :=
  ∃ earlier later, steps = earlier ++ .claim dispatch.notice :: later ∧
    before = replay earlier fresh ∧ before.channel.dispatchers ≠ 0 ∧
    dispatch.number = before.nextNumber

theorem begins_concat {steps : List Step} {next : Step} {before : Exchange}
    {dispatch : Dispatch} :
    Begins (steps ++ [next]) before dispatch ↔ Begins steps before dispatch ∨
      next = .claim dispatch.notice ∧ before = replay steps fresh ∧
        before.channel.dispatchers ≠ 0 ∧ dispatch.number = before.nextNumber := by
  constructor
  · rintro ⟨earlier, later, hsteps, hbefore, hrest⟩
    rcases List.eq_nil_or_concat later with rfl | ⟨middle, last, rfl⟩
    · obtain ⟨rfl, hlast⟩ := List.append_inj' hsteps rfl
      exact Or.inr ⟨List.singleton_inj.mp hlast, hbefore, hrest⟩
    · rw [List.concat_eq_append, ← List.cons_append, ← List.append_assoc] at hsteps
      obtain ⟨rfl, -⟩ := List.append_inj' hsteps rfl
      exact Or.inl ⟨earlier, middle, rfl, hbefore, hrest⟩
  · rintro (⟨earlier, later, rfl, hrest⟩ | ⟨rfl, hbefore, hrest⟩)
    · exact ⟨earlier, later ++ [next], by simp, hrest⟩
    · exact ⟨steps, [], rfl, hbefore, hrest⟩

/-- **A step keeps the dispatches**, or begins the next one. -/
theorem dispatches_step (exchange : Exchange) (next : Step) :
    (exchange.step next).nextNumber = exchange.nextNumber ∧
        (exchange.step next).dispatches.Perm exchange.dispatches ∨
      ∃ notice, next = .claim notice ∧ exchange.channel.dispatchers ≠ 0 ∧
        (exchange.step next).nextNumber = exchange.nextNumber + 1 ∧
        (exchange.step next).dispatches.Perm
          (exchange.dispatches ++ [⟨exchange.nextNumber, notice⟩]) := by
  rcases exchange.stepped next with hsame | hstepped
  · rw [hsame]
    exact Or.inl ⟨rfl, .refl _⟩
  · generalize exchange.step next = after at hstepped
    cases hstepped with
    | @claimed notice hopen _ =>
        refine Or.inr ⟨notice, rfl, hopen, rfl, List.perm_iff_count.mpr fun dispatch => ?_⟩
        simp only [dispatches, List.count_append]
        omega
    | @dropped notice hopen _ =>
        refine Or.inr ⟨notice, rfl, hopen, rfl, ?_⟩
        simp [dispatches]
    | @sent dispatch hclaimed _ _ =>
        refine Or.inl ⟨rfl, List.perm_iff_count.mpr fun other => ?_⟩
        have hcount := (List.perm_cons_erase hclaimed).count_eq other
        simp only [dispatches, List.map_append, List.map_cons, List.map_nil,
          List.count_append, List.count_cons, List.count_nil] at hcount ⊢
        omega
    | @refused dispatch hclaimed _ =>
        refine Or.inl ⟨rfl, List.perm_iff_count.mpr fun other => ?_⟩
        have hcount := (List.perm_cons_erase hclaimed).count_eq other
        simp only [dispatches, List.count_append, List.count_cons, List.count_nil] at hcount ⊢
        omega
    | @released dispatch hrefused =>
        refine Or.inl ⟨rfl, List.perm_iff_count.mpr fun other => ?_⟩
        have hcount := (List.perm_cons_erase hrefused).count_eq other
        simp only [dispatches, List.map_append, List.map_cons, List.map_nil,
          List.count_append, List.count_cons, List.count_nil] at hcount ⊢
        omega
    | _ => exact Or.inl ⟨rfl, .refl _⟩

/-- The dispatches are numbered in the order in which they begin. -/
theorem numbers_replay (steps : List Step) :
    ((replay steps fresh).dispatches.map Dispatch.number).Perm
      (List.range (replay steps fresh).nextNumber) := by
  induction steps using List.reverseRecOn with
  | nil => exact .refl _
  | append_singleton steps next ih =>
      rw [replay_concat]
      rcases (replay steps fresh).dispatches_step next with
        ⟨hnext, hperm⟩ | ⟨notice, -, -, hnext, hperm⟩
      · rw [hnext]
        exact (hperm.map _).trans ih
      · rw [hnext, List.range_succ]
        have hall := hperm.map Dispatch.number
        rw [List.map_append] at hall
        exact hall.trans (ih.append_right _)

theorem lt_nextNumber_of_mem {steps : List Step} {dispatch : Dispatch}
    (h : dispatch ∈ (replay steps fresh).dispatches) :
    dispatch.number < (replay steps fresh).nextNumber :=
  List.mem_range.mp ((numbers_replay steps).mem_iff.mp (List.mem_map_of_mem h))

/-- No dispatch comes from nowhere. -/
theorem begins_of_mem {steps : List Step} {dispatch : Dispatch}
    (h : dispatch ∈ (replay steps fresh).dispatches) :
    ∃ before, Begins steps before dispatch := by
  induction steps using List.reverseRecOn with
  | nil => cases h
  | append_singleton steps next ih =>
      rw [replay_concat] at h
      simp only [begins_concat]
      rcases (replay steps fresh).dispatches_step next with
        ⟨-, hperm⟩ | ⟨notice, rfl, hopen, -, hperm⟩
      · obtain ⟨before, hbegins⟩ := ih (hperm.mem_iff.mp h)
        exact ⟨before, Or.inl hbegins⟩
      · rcases List.mem_append.mp (hperm.mem_iff.mp h) with hold | hnew
        · obtain ⟨before, hbegins⟩ := ih hold
          exact ⟨before, Or.inl hbegins⟩
        · obtain rfl := List.mem_singleton.mp hnew
          exact ⟨_, Or.inr ⟨rfl, rfl, hopen, rfl⟩⟩

/-- What becomes of a dispatch that found the exchange idle, or not. -/
def Decided (exchange : Exchange) (dispatch : Dispatch) (idle : Bool) : Prop :=
  dispatch ∈ exchange.claimed ∧ idle = true ∨ ⟨dispatch, idle⟩ ∈ exchange.verdicts

theorem Sound.isIdle_eq {exchange : Exchange} (h : exchange.Sound) :
    exchange.isIdle = !exchange.channel.inFlight := by
  have htoken := h.token
  rw [Bool.eq_iff_iff]
  simp only [isIdle, Bool.and_eq_true, Option.isNone_iff_eq_none, List.isEmpty_iff,
    Bool.not_eq_true']
  constructor
  · rintro ⟨⟨hqueued, hpending⟩, hclaimed⟩
    rw [hqueued, hpending, hclaimed] at htoken
    exact Bool.toNat_eq_zero.mp htoken.symm
  · intro hdown
    rw [hdown, Bool.toNat_false] at htoken
    refine ⟨⟨?_, ?_⟩, ?_⟩
    · exact Option.toList_eq_nil_iff.mp (List.length_eq_zero_iff.mp (by omega))
    · exact List.length_eq_zero_iff.mp (by omega)
    · exact List.length_eq_zero_iff.mp (by omega)

/-- A dispatch is decided when it begins. -/
theorem Sound.decided_of_claim {exchange : Exchange} (h : exchange.Sound) (notice : Notice)
    (hopen : exchange.channel.dispatchers ≠ 0) :
    (exchange.step (.claim notice)).Decided ⟨exchange.nextNumber, notice⟩ exchange.isIdle := by
  rw [h.isIdle_eq]
  simp only [Exchange.step, if_neg hopen, claim, Channel.claim?]
  cases exchange.channel.inFlight with
  | true => exact Or.inr (by simp)
  | false => exact Or.inl (by simp)

/-- **A step keeps what is decided**: the dispatch that is about to send will be taken. -/
theorem Decided.step {exchange : Exchange} {dispatch : Dispatch} {idle : Bool}
    (h : exchange.Decided dispatch idle) (hsound : exchange.Sound) {next : Step}
    (hreceiving : (exchange.step next).channel.receiving = true) :
    (exchange.step next).Decided dispatch idle := by
  rcases exchange.stepped next with hsame | hstepped
  · rwa [hsame]
  · generalize exchange.step next = after at hreceiving hstepped
    cases hstepped with
    | claimed => exact h.imp (fun hmem => ⟨List.mem_append_left _ hmem.1, hmem.2⟩) id
    | dropped => exact h.imp id (List.mem_append_left _)
    | @sent sender hclaimed _ _ =>
        right
        rcases h with ⟨hmem, rfl⟩ | hover
        · rw [(hsound.room hclaimed).2.2.1] at hmem
          obtain rfl := List.mem_singleton.mp hmem
          exact List.mem_append_right _ (List.mem_singleton_self _)
        · exact List.mem_append_left _ hover
    | @refused sender hclaimed hfailed =>
        exact absurd (hsound.room hclaimed).1 (hfailed hreceiving)
    | released => exact h.imp id (List.mem_append_left _)
    | _ => exact h

/-- **A dispatch is decided by what it finds**, as long as somebody receives. -/
theorem decided_of_begins {steps : List Step}
    (hreceiving : (replay steps fresh).channel.receiving = true) {before : Exchange}
    {dispatch : Dispatch} (h : Begins steps before dispatch) :
    (replay steps fresh).Decided dispatch before.isIdle := by
  induction steps using List.reverseRecOn with
  | nil =>
      obtain ⟨earlier, later, hsteps, -⟩ := h
      simp at hsteps
  | append_singleton steps next ih =>
      rw [replay_concat] at hreceiving ⊢
      have hearlier := receiving_of_step hreceiving
      have hsound := sound_replay steps hearlier
      rcases begins_concat.mp h with hbegins | ⟨rfl, rfl, hopen, hnumber⟩
      · exact (ih hearlier hbegins).step hsound hreceiving
      · have hdecided := hsound.decided_of_claim dispatch.notice hopen
        rwa [← hnumber] at hdecided

/-! ### Without a receiver -/

/-- Nothing is sent when nobody receives. -/
theorem verdicts_step {exchange : Exchange} (next : Step)
    (h : exchange.channel.receiving = false) :
    ∃ more, (exchange.step next).verdicts = exchange.verdicts ++ more ∧
      ∀ verdict ∈ more, verdict.sent = false := by
  rcases exchange.stepped next with hsame | hstepped
  · exact ⟨[], by simp [hsame], by simp⟩
  · generalize exchange.step next = after at hstepped
    cases hstepped with
    | dropped => exact ⟨_, rfl, by simp⟩
    | sent _ hreceiving _ => exact absurd hreceiving (by simp [h])
    | released => exact ⟨_, rfl, by simp⟩
    | _ => exact ⟨[], by simp, by simp⟩

theorem verdicts_replay {exchange : Exchange} (steps : List Step)
    (h : exchange.channel.receiving = false) :
    ∃ more, (replay steps exchange).verdicts = exchange.verdicts ++ more ∧
      ∀ verdict ∈ more, verdict.sent = false := by
  induction steps generalizing exchange with
  | nil => exact ⟨[], by simp [replay], by simp⟩
  | cons next rest ih =>
      obtain ⟨first, hfirst, hunsent⟩ := verdicts_step next h
      have hafter : (exchange.step next).channel.receiving = false := by
        rw [Bool.eq_false_iff] at h ⊢
        exact fun hreceiving => h (receiving_of_step hreceiving)
      obtain ⟨more, hmore, hmoreUnsent⟩ := ih hafter
      refine ⟨first ++ more, ?_, ?_⟩
      · rw [← List.append_assoc, ← hfirst]
        exact hmore
      · intro verdict hmem
        exact (List.mem_append.mp hmem).elim (hunsent verdict) (hmoreUnsent verdict)

/-! ### Dispatching at once -/

theorem find_number_eq_none {dispatches : List Dispatch} {number : Nat}
    (h : ∀ dispatch ∈ dispatches, dispatch.number < number) :
    dispatches.find? (·.number = number) = none := by
  rw [List.find?_eq_none]
  intro dispatch hmem hequal
  exact absurd (of_decide_eq_true hequal) (h dispatch hmem).ne

theorem find_number_concat (dispatch : Dispatch) {dispatches : List Dispatch}
    (h : ∀ other ∈ dispatches, other.number < dispatch.number) :
    (dispatches ++ [dispatch]).find? (·.number = dispatch.number) = some dispatch := by
  simp [List.find?_append, find_number_eq_none h]

theorem erase_concat (dispatch : Dispatch) {dispatches : List Dispatch}
    (h : ∀ other ∈ dispatches, other.number < dispatch.number) :
    (dispatches ++ [dispatch]).erase dispatch = dispatches := by
  have hnew : dispatch ∉ dispatches := fun hmem => absurd (h dispatch hmem) (lt_irrefl _)
  rw [List.erase_append_right _ hnew, List.erase_cons_head, List.append_nil]

/-- **Dispatching at once is three steps in a row**: the dispatch begins, sends its notice,
and lowers the flag if this was not taken. -/
theorem dispatch_eq_replay {steps : List Step} {exchange : Exchange} (notice : Notice)
    (hreplay : replay steps fresh = exchange) (hopen : exchange.channel.dispatchers ≠ 0) :
    replay [.claim notice, .send exchange.nextNumber, .release exchange.nextNumber] exchange
      = { exchange with
          channel := (exchange.channel.dispatch notice).1
          verdicts := exchange.verdicts
            ++ [⟨⟨exchange.nextNumber, notice⟩, (exchange.channel.dispatch notice).2⟩]
          nextNumber := exchange.nextNumber + 1 } := by
  have hfresh : ∀ dispatch ∈ exchange.dispatches, dispatch.number < exchange.nextNumber := by
    intro dispatch hmem
    rw [← hreplay] at hmem ⊢
    exact lt_nextNumber_of_mem hmem
  have hclaimed : ∀ dispatch ∈ exchange.claimed, dispatch.number < exchange.nextNumber :=
    fun dispatch hmem => hfresh dispatch (by simp [dispatches, hmem])
  have hrefused : ∀ dispatch ∈ exchange.refused, dispatch.number < exchange.nextNumber :=
    fun dispatch hmem => hfresh dispatch (by simp [dispatches, hmem])
  have hnone := find_number_eq_none hclaimed
  have hnoneRefused := find_number_eq_none hrefused
  have hsome := find_number_concat ⟨exchange.nextNumber, notice⟩ hclaimed
  have hsomeRefused := find_number_concat ⟨exchange.nextNumber, notice⟩ hrefused
  have herase := erase_concat ⟨exchange.nextNumber, notice⟩ hclaimed
  have heraseRefused := erase_concat ⟨exchange.nextNumber, notice⟩ hrefused
  simp only [replay, List.foldl_cons, List.foldl_nil, step, if_neg hopen, claim,
    Channel.dispatch]
  cases hclaim : exchange.channel.claim? with
  | none => simp only [hnone, hnoneRefused]
  | some channel =>
      simp only [hsome, send]
      rcases hsend : channel.send notice with ⟨after, delivery⟩
      cases delivery with
      | delivered => simp only [herase, hnoneRefused]
      | full => simp only [herase, hsomeRefused, release, heraseRefused]
      | disconnected => simp only [herase, hsomeRefused, release, heraseRefused]

/-! ### Exchanges -/

/-- An exchange with a receiver, after a row of steps. -/
structure Orderly (steps : List Step) (exchange : Exchange) : Prop where
  single : exchange.channel.queued.toList.length + exchange.channel.pending.length ≤ 1
  flag : exchange.channel.inFlight = true ↔
    exchange.channel.queued ≠ none ∨ exchange.channel.pending ≠ [] ∨ exchange.claimed ≠ []
  /-- Who is about to send finds room, and will have sent. -/
  room : ∀ dispatch ∈ exchange.claimed,
    (exchange.channel.send dispatch.notice).2 = .delivered ∧
      (exchange.step (.send dispatch.number)).verdicts = exchange.verdicts ++ [⟨dispatch, true⟩]
  /-- A dispatch sends its notice exactly if it found the exchange idle. -/
  decided : ∀ before dispatch, Begins steps before dispatch →
    exchange.Decided dispatch before.isIdle
  passed : exchange.received ++ exchange.channel.queued.toList = exchange.sent

theorem Sound.send_of_claimed {exchange : Exchange} (h : exchange.Sound) {dispatch : Dispatch}
    (hreceiving : exchange.channel.receiving = true) (hclaimed : dispatch ∈ exchange.claimed) :
    (exchange.channel.send dispatch.notice).2 = .delivered ∧
      (exchange.step (.send dispatch.number)).verdicts
        = exchange.verdicts ++ [⟨dispatch, true⟩] := by
  obtain ⟨hroom, -, honly, -⟩ := h.room hclaimed
  constructor
  · simp [Channel.send, hreceiving, hroom]
  · simp [Exchange.step, honly, send, Channel.send, hreceiving, hroom]

/-- **Notices.** Whatever the order of the steps, while somebody receives one notice at most
is queued or waits to be completed, the flag tells whether there is one or a dispatch is about
to send, a dispatch sends its notice exactly if it finds neither, and the notices received,
with the one queued, are those sent, in their order. Every dispatch is told apart by its
number and has begun in a step. Once nobody receives, nothing more is sent. -/
theorem notices_of_replay (steps : List Step) :
    ((replay steps fresh).channel.receiving = true → Orderly steps (replay steps fresh)) ∧
      ((replay steps fresh).dispatches.map Dispatch.number).Nodup ∧
      (∀ dispatch ∈ (replay steps fresh).dispatches, ∃ before, Begins steps before dispatch) ∧
      ∀ earlier later, steps = earlier ++ later →
        (replay earlier fresh).channel.receiving = false →
        ∃ more, (replay steps fresh).verdicts = (replay earlier fresh).verdicts ++ more ∧
          ∀ verdict ∈ more, verdict.sent = false := by
  refine ⟨?_, (numbers_replay steps).nodup_iff.mpr List.nodup_range,
    fun dispatch hmem => begins_of_mem hmem, ?_⟩
  · intro hreceiving
    have hsound := sound_replay steps hreceiving
    have hbound := (replay steps fresh).channel.inFlight.toNat_le
    constructor
    · exact le_trans (Nat.le_add_right _ _) (hsound.token.trans_le hbound)
    · have hidle := hsound.isIdle_eq
      rw [Bool.eq_iff_iff] at hidle
      simp only [isIdle, Bool.and_eq_true, Option.isNone_iff_eq_none, List.isEmpty_iff,
        Bool.not_eq_true'] at hidle
      rw [← Bool.not_eq_false, ← hidle]
      tauto
    · exact fun dispatch hclaimed => hsound.send_of_claimed hreceiving hclaimed
    · exact fun before dispatch hbegins => decided_of_begins hreceiving hbegins
    · exact hsound.passed
  · rintro earlier later rfl hgone
    have happend : replay (earlier ++ later) fresh = replay later (replay earlier fresh) :=
      List.foldl_append
    rw [happend]
    exact verdicts_replay later hgone

/-- Three dispatches of two dispatchers. The second finds the first about to send, the third
begins when the first notice is completed, and the receiver goes away before it sends. -/
def sampleSteps : List Step :=
  [.clone, .claim ⟨["A"]⟩, .claim ⟨["B"]⟩, .send 0, .receive, .complete 0, .claim ⟨["C"]⟩,
    .dropReceiver, .send 2, .release 2]

theorem notices_of_sample :
    ((replay (sampleSteps.take 7) fresh).channel.receiving = true ∧
      Orderly (sampleSteps.take 7) (replay (sampleSteps.take 7) fresh)) ∧
    (replay (sampleSteps.take 8) fresh).channel.receiving = false ∧
      ∃ more, (replay sampleSteps fresh).verdicts
          = (replay (sampleSteps.take 8) fresh).verdicts ++ more ∧
        ∀ verdict ∈ more, verdict.sent = false :=
  ⟨⟨by decide, (notices_of_replay (sampleSteps.take 7)).1 (by decide)⟩, by decide,
    (notices_of_replay sampleSteps).2.2.2 (sampleSteps.take 8) (sampleSteps.drop 8) (by decide)
      (by decide)⟩

end Exchange

end ShaderMend
