import PromptCanvas.Proofs.View.Changes
import PromptCanvas.Prompt.Preview

/-!
# The preview is never stale

A preview that follows a store knows that its prompt may be out of date, because every change of the
store is told to it and counted.  The profiles are another matter: whoever changes them has to mark
the preview.  Until then it may show a prompt of the old profiles, and from the mark on it does not.
-/

namespace PromptCanvas

variable {α : Type}

namespace Preview

variable {p : Preview} {s s' : Store α} {library : SubjectLibrary} {ratio : String}
  {c : CompiledPrompt}

/-- The preview is told of the changes of the store, and it has not seen more than it was told. -/
structure Follows (p : Preview) (s : Store α) : Prop where
  listens : .preview ∈ s.listeners
  seen_le : p.seen ≤ s.told .preview

theorem Follows.of_attempt {done : Bool} (h : p.Follows s) (hattempt : s.Attempt s' done) :
    p.Follows s' := by
  constructor
  · rw [hattempt.listeners_eq]
    exact h.listens
  · rw [hattempt.told_eq]
    exact Nat.le_add_right_of_le h.seen_le

theorem Follows.dirty_of_applied (h : p.Follows s) (happlied : s.Attempt s' true) :
    p.dirty s' = true := by
  have hcount : 0 < s.listeners.count .preview := List.count_pos_iff.mpr h.listens
  have htold : s'.told .preview = s.told .preview + s.listeners.count .preview :=
    happlied.told_eq .preview
  have hseen : p.seen ≠ s'.told .preview := by
    have hle := h.seen_le
    omega
  rw [dirty, bne_iff_ne.mpr hseen, Bool.or_true]

/-- What was refused makes no prompt out of date. -/
theorem dirty_of_refused (p : Preview) (hrefused : s.Attempt s' false) :
    p.dirty s' = p.dirty s := by
  have htold : s'.told .preview = s.told .preview := hrefused.told_eq .preview
  rw [dirty, dirty, htold]

theorem current_of_clean (hc : p.cached = some c) (hclean : p.dirty s = false) :
    p.current s library ratio = (p, .ok c) := by
  simp only [current, hc, hclean, Bool.false_eq_true, if_false]

theorem current_of_stale (h : p.cached = none ∨ p.dirty s = true) :
    p.current s library ratio = match s.graph.compile library ratio none with
      | .error e => (p, .error e)
      | .ok c => (⟨some c, false, s.told .preview, p.compiles + 1⟩, .ok c) := by
  unfold current
  cases hc : p.cached with
  | none => rfl
  | some c =>
    rw [hc] at h
    exact if_pos (h.resolve_left nofun)

/-- Where the prompt is asked for, it is compiled anew, or it is there and taken to be right. -/
theorem current_cases (p : Preview) (s : Store α) (library : SubjectLibrary) (ratio : String) :
    (∃ c, p.cached = some c ∧ p.dirty s = false ∧ p.current s library ratio = (p, .ok c)) ∨
    (∃ c, s.graph.compile library ratio none = .ok c ∧
      p.current s library ratio = (⟨some c, false, s.told .preview, p.compiles + 1⟩, .ok c)) ∨
    ∃ e, s.graph.compile library ratio none = .error e ∧
      p.current s library ratio = (p, .error e) := by
  by_cases hstale : p.cached = none ∨ p.dirty s = true
  · right
    rw [current_of_stale hstale]
    cases s.graph.compile library ratio none with
    | ok c => exact Or.inl ⟨c, rfl, rfl⟩
    | error e => exact Or.inr ⟨e, rfl, rfl⟩
  · left
    obtain ⟨hcached, hclean⟩ := not_or.mp hstale
    obtain ⟨c, hc⟩ := Option.ne_none_iff_exists'.mp hcached
    rw [Bool.not_eq_true] at hclean
    exact ⟨c, hc, hclean, current_of_clean hc hclean⟩

theorem clean_of_current (h : (p.current s library ratio).2 = .ok c) :
    (p.current s library ratio).1.cached = some c ∧
      (p.current s library ratio).1.dirty s = false := by
  rcases p.current_cases s library ratio with ⟨d, hd, hclean, he⟩ | ⟨d, -, he⟩ | ⟨e, -, he⟩
  · rw [he] at h ⊢
    cases h
    exact ⟨hd, hclean⟩
  · rw [he] at h ⊢
    cases h
    exact ⟨rfl, by simp [dirty]⟩
  · rw [he] at h
    cases h

end Preview

/-! ## What happens around a preview -/

/-- A canvas with a preview that follows its store, and the profiles that the preview reads. -/
structure Watch (α : Type) where
  canvas : Canvas α
  preview : Preview
  library : SubjectLibrary
  ratio : String
  /-- The profiles were changed, and the preview was not marked since. -/
  pending : Bool

namespace Watch

inductive Event (α : Type) where
  /-- Something reaches the canvas; all changes of its store are among this. -/
  | touch (e : Canvas.Event α)
  /-- The profiles are changed. -/
  | relibrary (library : SubjectLibrary)
  | mark
  /-- The prompt is asked for. -/
  | look

/-- A preview that begins to follow the store of a canvas. -/
def start (c : Canvas α) (library : SubjectLibrary) (ratio : String) : Watch α :=
  let (store, preview, _) := Preview.follow c.store
  { canvas := { c with store }, preview, library, ratio, pending := false }

/-- The preview after it was asked for the prompt, and what it gave. -/
def current (w : Watch α) : Preview × Except Prompt.MissingPhrase CompiledPrompt :=
  w.preview.current w.canvas.store w.library w.ratio

/-- The prompt for the store's graph. -/
def compiled (w : Watch α) : Except Prompt.MissingPhrase CompiledPrompt :=
  w.canvas.store.graph.compile w.library w.ratio none

variable [Scalar α]

def step (w : Watch α) : Event α → Watch α
  | .touch e => { w with canvas := (w.canvas.apply e).1 }
  | .relibrary library => { w with library, pending := true }
  | .mark => { w with preview := w.preview.mark, pending := false }
  | .look => { w with preview := w.current.1 }

def run (w : Watch α) (events : List (Event α)) : Watch α := events.foldl step w

theorem run_append (w : Watch α) (events more : List (Event α)) :
    w.run (events ++ more) = (w.run events).run more :=
  List.foldl_append

theorem ratio_run (w : Watch α) (events : List (Event α)) : (w.run events).ratio = w.ratio := by
  induction events generalizing w with
  | nil => rfl
  | cons e rest ih =>
    have hstep : (w.step e).ratio = w.ratio := by cases e <;> rfl
    exact (ih (w.step e)).trans hstep

/-- The preview hears of changes, and what it takes to be right is right unless profiles were changed
behind its back. -/
structure Fresh (w : Watch α) : Prop where
  follows : w.preview.Follows w.canvas.store
  cached_eq : w.pending = false → ∀ c, w.preview.cached = some c →
    w.preview.dirty w.canvas.store = false → w.compiled = .ok c

omit [Scalar α] in
theorem fresh_start (c : Canvas α) (library : SubjectLibrary) (ratio : String) :
    (start c library ratio).Fresh where
  follows := ⟨List.mem_append_right _ (List.mem_singleton_self _), Nat.le_refl _⟩
  cached_eq _ _ h := by cases h

theorem Fresh.touch {w : Watch α} (h : w.Fresh) (e : Canvas.Event α) :
    (w.step (.touch e)).Fresh := by
  have hattempt := w.canvas.attempt_apply e
  refine ⟨h.follows.of_attempt hattempt, fun hknown c hc hclean => ?_⟩
  cases hdone : (w.canvas.apply e).2.changed with
  | false =>
    rw [hdone] at hattempt
    have hgraph : (w.step (.touch e)).canvas.store.graph = w.canvas.store.graph :=
      hattempt.graph_eq_of_refused
    rw [compiled, hgraph]
    exact h.cached_eq hknown c hc ((w.preview.dirty_of_refused hattempt).symm.trans hclean)
  | true =>
    rw [hdone] at hattempt
    have hdirty : w.preview.dirty (w.step (.touch e)).canvas.store = true :=
      h.follows.dirty_of_applied hattempt
    exact absurd (hdirty.symm.trans hclean) (by decide)

omit [Scalar α] in
theorem current_snd_eq {w : Watch α} (h : w.Fresh) (hknown : w.pending = false) :
    w.current.2 = w.compiled := by
  rcases w.preview.current_cases w.canvas.store w.library w.ratio with
    ⟨c, hc, hclean, he⟩ | ⟨c, hc, he⟩ | ⟨e, hc, he⟩
  · rw [current, he, h.cached_eq hknown c hc hclean]
  · rw [current, he, compiled, hc]
  · rw [current, he, compiled, hc]

theorem Fresh.look {w : Watch α} (h : w.Fresh) : (w.step .look).Fresh := by
  rcases w.preview.current_cases w.canvas.store w.library w.ratio with
    ⟨c, hc, hclean, he⟩ | ⟨c, hc, he⟩ | ⟨e, hc, he⟩ <;> rw [step, current, he]
  · exact ⟨h.follows, h.cached_eq⟩
  · refine ⟨⟨h.follows.listens, Nat.le_refl _⟩, fun _ d hd _ => ?_⟩
    cases hd
    exact hc
  · exact ⟨h.follows, h.cached_eq⟩

theorem Fresh.step {w : Watch α} (h : w.Fresh) (e : Event α) : (w.step e).Fresh := by
  cases e with
  | touch e => exact h.touch e
  | relibrary library => exact ⟨h.follows, fun hknown => by cases hknown⟩
  | mark =>
    exact ⟨⟨h.follows.listens, h.follows.seen_le⟩, fun _ c _ hclean => by cases hclean⟩
  | look => exact h.look

theorem Fresh.run {w : Watch α} (h : w.Fresh) (events : List (Event α)) : (w.run events).Fresh := by
  induction events generalizing w with
  | nil => exact h
  | cons e rest ih => exact ih (h.step e)

/-! ## Nothing is compiled without need -/

/-- Events none of which changes the store or marks the preview. -/
inductive Quiet : Watch α → List (Event α) → Prop
  | nil (w : Watch α) : Quiet w []
  | touch {w : Watch α} {e : Canvas.Event α} {rest : List (Event α)}
      (hrefused : (w.canvas.apply e).2.changed = false)
      (h : Quiet (w.step (.touch e)) rest) : Quiet w (.touch e :: rest)
  | relibrary {w : Watch α} {library : SubjectLibrary} {rest : List (Event α)}
      (h : Quiet (w.step (.relibrary library)) rest) : Quiet w (.relibrary library :: rest)
  | look {w : Watch α} {rest : List (Event α)} (h : Quiet (w.step .look) rest) :
      Quiet w (.look :: rest)

/-- A prompt that is taken to be right is given again as long as nothing happens. -/
theorem current_of_quiet {w : Watch α} {events : List (Event α)} (h : Quiet w events)
    {c : CompiledPrompt} (hc : w.preview.cached = some c)
    (hclean : w.preview.dirty w.canvas.store = false) :
    (w.run events).preview = w.preview ∧ (w.run events).current = (w.preview, .ok c) := by
  induction h with
  | nil w => exact ⟨rfl, Preview.current_of_clean hc hclean⟩
  | @touch w e rest hrefused h ih =>
    have hattempt := w.canvas.attempt_apply e
    rw [hrefused] at hattempt
    exact ih hc ((w.preview.dirty_of_refused hattempt).trans hclean)
  | relibrary h ih => exact ih hc hclean
  | @look w rest h ih =>
    have hsame : w.step .look = w := by
      rw [step, current, Preview.current_of_clean hc hclean]
    rw [hsame] at ih
    show ((w.step .look).run rest).preview = _ ∧ ((w.step .look).run rest).current = _
    rw [hsame]
    exact ih hc hclean

end Watch
end PromptCanvas
