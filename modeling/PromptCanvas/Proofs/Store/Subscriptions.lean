import PromptCanvas.Proofs.Store.Changes

/-!
# Who is told how often

Every registration of a listener gives out a handle, with which it can be taken back.  A listener
should be told of a change once for each of its registrations that is in force, which is as long as
the registration's own handle has not been called.  `Following` keeps all registrations there were
beside the store.

The store itself keeps listeners: a handle takes back some registration of its listener, whichever
that is.  Where handles are called once this makes no difference, as the registrations of one
listener are all alike to the store.  Called again, a handle takes back a registration that is still
in force, if there is any; listeners are told as they should be exactly as long as that does not
happen.
-/

namespace PromptCanvas

/-- A registration of a listener. -/
structure Registration where
  handle : Subscription
  /-- The handle has been called. -/
  called : Bool

/-- A store and all registrations that there were, the oldest first. -/
structure Following (α : Type) where
  store : Store α
  registrations : List Registration

namespace Following

variable {α : Type}

/-- A store before anyone listens to it. -/
def unheard (s : Store α) : Following α := ⟨{ s with listeners := [] }, []⟩

inductive Act (α : Type) where
  | subscribe (l : Listener)
  /-- Calls the handle of a registration.  Registrations are numbered from zero. -/
  | call (number : Nat)
  | change (op : Store.Operation α)

/-- How many registrations of a listener are in force. -/
def inForce (f : Following α) (l : Listener) : Nat :=
  f.registrations.countP fun r => r.handle.listener == l && !r.called

/-- The act calls a handle again while another registration of its listener is in force. -/
def Strays (f : Following α) : Act α → Prop
  | .call number => ∃ r, f.registrations[number]? = some r ∧ r.called = true ∧
      0 < f.inForce r.handle.listener
  | _ => False

variable [Scalar α]

def step (f : Following α) : Act α → Following α
  | .subscribe l =>
    let (store, handle) := f.store.subscribe l
    ⟨store, f.registrations ++ [⟨handle, false⟩]⟩
  | .call number =>
    match f.registrations[number]? with
    | none => f
    | some r =>
      ⟨f.store.unsubscribe r.handle, f.registrations.set number { r with called := true }⟩
  | .change op => { f with store := (f.store.apply op).1 }

def run (f : Following α) (acts : List (Act α)) : Following α := acts.foldl step f

theorem run_concat (f : Following α) (acts : List (Act α)) (act : Act α) :
    f.run (acts ++ [act]) = (f.run acts).step act := by
  rw [run, List.foldl_append]
  rfl

/-! ## What one act does -/

theorem count_subscribe (f : Following α) (l k : Listener) :
    (f.step (.subscribe l)).store.listeners.count k =
      f.store.listeners.count k + if l = k then 1 else 0 := by
  show (f.store.listeners ++ [l]).count k = _
  rw [List.count_append, List.count_singleton]
  simp only [beq_iff_eq]

theorem inForce_subscribe (f : Following α) (l k : Listener) :
    (f.step (.subscribe l)).inForce k = f.inForce k + if l = k then 1 else 0 := by
  show (f.registrations ++ [(⟨⟨l⟩, false⟩ : Registration)]).countP _ = _
  rw [List.countP_append, List.countP_singleton]
  simp only [Bool.not_false, Bool.and_true, beq_iff_eq]
  rfl

/-- A change neither ends a registration nor begins one. -/
theorem count_change (f : Following α) (op : Store.Operation α) (l : Listener) :
    (f.step (.change op)).store.listeners.count l = f.store.listeners.count l := by
  show (f.store.apply op).1.listeners.count l = _
  rw [(f.store.attempt_apply op).listeners_eq]

variable {f : Following α} {number : Nat} {r : Registration}

theorem step_call (h : f.registrations[number]? = some r) :
    f.step (.call number) =
      ⟨f.store.unsubscribe r.handle, f.registrations.set number { r with called := true }⟩ := by
  rw [step, h]

theorem count_call (h : f.registrations[number]? = some r) (l : Listener) :
    (f.step (.call number)).store.listeners.count l =
      f.store.listeners.count l - if r.handle.listener = l then 1 else 0 := by
  rw [step_call h]
  show (f.store.listeners.erase r.handle.listener).count l = _
  rw [List.count_erase]
  simp only [beq_iff_eq]

/-- The first call of a handle ends its own registration. -/
theorem inForce_first_call (h : f.registrations[number]? = some r) (hr : r.called = false)
    (l : Listener) :
    (f.step (.call number)).inForce l + (if r.handle.listener = l then 1 else 0) = f.inForce l := by
  obtain ⟨hlt, hget⟩ := List.getElem?_eq_some_iff.mp h
  have hmem : r ∈ f.registrations := List.mem_of_getElem? h
  rw [step_call h, inForce, inForce, List.countP_set hlt, hget, hr]
  by_cases hl : r.handle.listener = l
  · have hpos : 0 < f.registrations.countP fun r => r.handle.listener == l && !r.called :=
      List.countP_pos_iff.mpr ⟨r, hmem, by simp [hl, hr]⟩
    simp [hl]
    omega
  · simp [hl]

/-- Any further call leaves all registrations in force that were. -/
theorem registrations_further_call (h : f.registrations[number]? = some r) (hr : r.called = true) :
    (f.step (.call number)).registrations = f.registrations := by
  obtain ⟨hlt, rfl⟩ := List.getElem?_eq_some_iff.mp h
  have hsame : { f.registrations[number] with called := true } = f.registrations[number] := by
    rw [← hr]
  rw [step_call h, hsame]
  exact List.set_getElem_self hlt

/-! ## What a history comes to -/

/-- The store has each listener as often as registrations of it are in force. -/
def InStep (f : Following α) : Prop := ∀ l, f.store.listeners.count l = f.inForce l

omit [Scalar α] in
theorem inStep_unheard (s : Store α) : (unheard s).InStep := fun _ => rfl

theorem InStep.step {act : Act α} (h : f.InStep) (hact : ¬ f.Strays act) :
    (f.step act).InStep := by
  intro l
  cases act with
  | subscribe k => rw [count_subscribe, inForce_subscribe, h l]
  | change op => rw [count_change, h l]; rfl
  | call number =>
    cases hr : f.registrations[number]? with
    | none => rw [Following.step, hr]; exact h l
    | some r =>
      rw [count_call hr, h l]
      cases hcalled : r.called with
      | false =>
        have := inForce_first_call hr hcalled l
        omega
      | true =>
        have hgone : f.inForce r.handle.listener = 0 :=
          Nat.eq_zero_of_not_pos fun hpos => hact ⟨r, hr, hcalled, hpos⟩
        have hsame : (f.step (.call number)).inForce l = f.inForce l := by
          rw [inForce, registrations_further_call hr hcalled, ← inForce]
        rw [hsame]
        by_cases hl : r.handle.listener = l
        · rw [← hl, hgone, Nat.zero_sub]
        · rw [if_neg hl, Nat.sub_zero]

/-- An act that strays takes a registration out of the store that is in force. -/
theorem InStep.not_step {act : Act α} (h : f.InStep) (hact : f.Strays act) :
    ¬ (f.step act).InStep := by
  intro hstep
  cases act with
  | subscribe k => exact hact
  | change op => exact hact
  | call number =>
    obtain ⟨r, hr, hcalled, hpos⟩ := hact
    have hafter := hstep r.handle.listener
    rw [count_call hr, if_pos rfl, h, inForce, inForce, registrations_further_call hr hcalled,
      ← inForce] at hafter
    omega

/-- Whatever the acts are, the store has no listener too often. -/
theorem count_le_inForce_step (h : ∀ l, f.store.listeners.count l ≤ f.inForce l) (act : Act α)
    (l : Listener) : (f.step act).store.listeners.count l ≤ (f.step act).inForce l := by
  have hl := h l
  cases act with
  | subscribe k => rw [count_subscribe, inForce_subscribe]; omega
  | change op => rw [count_change]; exact hl
  | call number =>
    cases hr : f.registrations[number]? with
    | none => rw [Following.step, hr]; exact hl
    | some r =>
      rw [count_call hr]
      cases hcalled : r.called with
      | false =>
        have := inForce_first_call hr hcalled l
        omega
      | true =>
        rw [inForce, registrations_further_call hr hcalled, ← inForce]
        omega

theorem count_le_inForce_run (s : Store α) (acts : List (Act α)) (l : Listener) :
    ((unheard s).run acts).store.listeners.count l ≤ ((unheard s).run acts).inForce l := by
  induction acts using List.reverseRecOn generalizing l with
  | nil => exact Nat.zero_le _
  | append_singleton acts act ih =>
    rw [run_concat]
    exact count_le_inForce_step ih act l

/-- Asked for a change, the store tells each listener as often as registrations of it are in force,
or nobody if it refuses. -/
def TellsInForce (f : Following α) : Prop :=
  ∀ op l, (f.store.apply op).1.told l =
    f.store.told l + if (f.store.apply op).2.accepted then f.inForce l else 0

theorem tellsInForce_iff_inStep : f.TellsInForce ↔ f.InStep := by
  have htold := fun op l => (f.store.attempt_apply op).told_eq l
  constructor
  · intro h l
    have hreset : f.store.told l + f.store.listeners.count l = f.store.told l + f.inForce l :=
      (htold .reset l).symm.trans (h .reset l)
    exact Nat.add_left_cancel hreset
  · intro h op l
    rw [htold op l, h l]

/-- However registrations are made, handles called and changes asked for: at every point of it a
listener is told of an applied change once for each of its registrations whose own handle has not
been called, if and only if no handle was called again while another registration of its listener
was in force.  Otherwise it is told less often, never more often. -/
theorem tells_in_force_iff_no_stray (s : Store α) (acts : List (Act α)) :
    ((∀ before, before <+: acts → ((unheard s).run before).TellsInForce) ↔
      ∀ before act, before ++ [act] <+: acts → ¬ ((unheard s).run before).Strays act) ∧
    ∀ op l, (((unheard s).run acts).store.apply op).1.told l ≤
      ((unheard s).run acts).store.told l + ((unheard s).run acts).inForce l := by
  refine ⟨⟨fun htells before act hprefix hstrays => ?_, fun hnone before => ?_⟩, fun op l => ?_⟩
  · have hbefore := tellsInForce_iff_inStep.mp
      (htells before ((List.prefix_append before [act]).trans hprefix))
    have hafter := tellsInForce_iff_inStep.mp (htells _ hprefix)
    rw [run_concat] at hafter
    exact hbefore.not_step hstrays hafter
  · intro hprefix
    refine tellsInForce_iff_inStep.mpr ?_
    induction before using List.reverseRecOn with
    | nil => exact inStep_unheard s
    | append_singleton before act ih =>
      rw [run_concat]
      exact (ih ((List.prefix_append before [act]).trans hprefix)).step (hnone before act hprefix)
  · rw [(Store.attempt_apply _ op).told_eq l]
    have := count_le_inForce_run s acts l
    split <;> omega

/-- A listener is registered twice, and the first of its handles is called twice. -/
def calledTwice : List (Act Float) :=
  [.subscribe (.observer "a"), .subscribe (.observer "a"), .call 0, .call 0]

/-- The second registration is in force, and yet nobody is told. -/
theorem told_of_calledTwice :
    let f := (unheard (.startWith .counting Store.usualMetrics)).run calledTwice
    f.inForce (.observer "a") = 1 ∧ (f.store.apply (.addNode .lens ⟨0, 0⟩)).2.accepted = true ∧
      (f.store.apply (.addNode .lens ⟨0, 0⟩)).1.told (.observer "a") =
        f.store.told (.observer "a") := by
  decide +kernel

end Following
end PromptCanvas
