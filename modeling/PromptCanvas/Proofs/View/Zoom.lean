import Mathlib.Algebra.Order.Field.Rat
import Mathlib.Tactic.Linarith
import PromptCanvas.Proofs.Settings.Admitted
import PromptCanvas.Proofs.View.Changes

/-!
# What a view keeps

A view is panned, zoomed about a point of the screen, taken back and resized, in any order.  The
zoom stays positive whatever its limits are, even if the lower one lies above the upper one, so the
plane and the screen lead to each other, and a zoom keeps the point that it is made about.

Only a zoom looks at the limits.  After any events the zoom is 1 as long as nothing was zoomed since
the view was new or was taken back, and a clamped zoom otherwise (`Viewport.zoomIs_unzoomed`).
-/

namespace PromptCanvas

def Metrics.ZoomWithin (m : Metrics Rat) (zoom : Rat) : Prop := m.minZoom ≤ zoom ∧ zoom ≤ m.maxZoom

namespace Viewport

inductive Event (α : Type) where
  | pan (dx dy : α)
  | wheel (p : Point α) (delta : α) (pinch : Bool)
  | zoomIn
  | zoomOut
  | reset
  | resize (width height : α)

def Event.zooms {α : Type} : Event α → Bool
  | .wheel .. | .zoomIn | .zoomOut => true
  | .pan .. | .reset | .resize .. => false

/-- Whether the zoom is still that of a new view after an event, if it was or was not before. -/
def Event.leavesNew {α : Type} (fresh : Bool) : Event α → Bool
  | .reset => true
  | e => fresh && !e.zooms

/-- No event zooms after the last one that takes the view back. -/
def unzoomed {α : Type} (events : List (Event α)) : Bool := events.foldl Event.leavesNew true

section Run

variable {α : Type} [Scalar α]

def apply (m : Metrics α) (v : Viewport α) : Event α → Viewport α
  | .pan dx dy => v.panBy dx dy
  | .wheel p delta pinch => v.wheel m p delta pinch
  | .zoomIn => v.zoomIn m
  | .zoomOut => v.zoomOut m
  | .reset => v.reset
  | .resize width height => v.resize width height

/-- The view after a row of events. -/
def run (m : Metrics α) (v : Viewport α) (events : List (Event α)) : Viewport α :=
  events.foldl (apply m) v

theorem run_append (m : Metrics α) (v : Viewport α) (first second : List (Event α)) :
    v.run m (first ++ second) = (v.run m first).run m second := List.foldl_append

/-- What the zoom of a view is: 1 while it is that of a new view, and a clamped one otherwise. -/
def ZoomIs (m : Metrics α) (zoom : α) : Bool → Prop
  | true => zoom = ((1 : Nat) : α)
  | false => ∃ wanted, zoom = clampZoom m wanted

theorem zoomIs_apply {m : Metrics α} {v : Viewport α} {fresh : Bool} (h : ZoomIs m v.zoom fresh)
    (e : Event α) : ZoomIs m (v.apply m e).zoom (e.leavesNew fresh) := by
  have hasked (wanted : α) : ZoomIs m (clampZoom m wanted) (fresh && !true) := by
    rw [Bool.not_true, Bool.and_false]
    exact ⟨wanted, rfl⟩
  have hkept : ZoomIs m v.zoom (fresh && !false) := by
    rwa [Bool.not_false, Bool.and_true]
  cases e with
  | pan dx dy => exact hkept
  | wheel p delta pinch => exact hasked _
  | zoomIn => exact hasked _
  | zoomOut => exact hasked _
  | reset => rfl
  | resize width height => exact hkept

theorem zoomIs_run {m : Metrics α} {v : Viewport α} {fresh : Bool} (h : ZoomIs m v.zoom fresh)
    (events : List (Event α)) :
    ZoomIs m (v.run m events).zoom (events.foldl Event.leavesNew fresh) := by
  induction events generalizing v fresh with
  | nil => exact h
  | cons e rest ih => exact ih (zoomIs_apply h e)

theorem zoomIs_unzoomed (m : Metrics α) (width height : α) (events : List (Event α)) :
    ZoomIs m ((ofSize width height).run m events).zoom (unzoomed events) := by
  have hnew : ZoomIs m (ofSize width height).zoom true := rfl
  exact zoomIs_run hnew events

end Run

/-! ## The limits -/

theorem clampZoom_pos {m : Metrics Rat} (hm : m.Admitted) (zoom : Rat) : 0 < clampZoom m zoom := by
  have hmin : 0 < m.minZoom := by exact_mod_cast hm.minZoom_pos
  have hmax : 0 < m.maxZoom := by exact_mod_cast hm.maxZoom_pos
  unfold clampZoom Scalar.lesser Scalar.greater
  split_ifs <;> linarith

theorem zoomWithin_clampZoom {m : Metrics Rat} (h : m.minZoom ≤ m.maxZoom) (zoom : Rat) :
    m.ZoomWithin (clampZoom m zoom) := by
  unfold Metrics.ZoomWithin clampZoom Scalar.lesser Scalar.greater
  split_ifs <;> constructor <;> linarith

/-! ## Plane and screen -/

section Inverse

variable {v : Viewport Rat} (h : v.zoom ≠ 0)
include h

theorem toScreen_toWorld (p : Point Rat) : v.toScreen (v.toWorld p) = p := by
  have hcancel (x pan : Rat) : (x - pan) / v.zoom * v.zoom + pan = x := by
    rw [div_mul_cancel₀ _ h, sub_add_cancel]
  simp only [toScreen, toWorld, hcancel]

theorem toWorld_toScreen (p : Point Rat) : v.toWorld (v.toScreen p) = p := by
  have hcancel (x pan : Rat) : (x * v.zoom + pan - pan) / v.zoom = x := by
    rw [add_sub_cancel_right, mul_div_cancel_right₀ _ h]
  simp only [toScreen, toWorld, hcancel]

end Inverse

/-- Zooming about a point of the screen keeps the point of the plane that is drawn there, whatever
zoom is asked for and however it is clamped. -/
theorem toWorld_zoomAt {m : Metrics Rat} (hm : m.Admitted) (v : Viewport Rat) (p : Point Rat)
    (zoom : Rat) : (v.zoomAt m p zoom).toWorld p = v.toWorld p := by
  have hne : clampZoom m zoom ≠ 0 := (clampZoom_pos hm zoom).ne'
  have hcancel (x world : Rat) :
      (x - (x - world * clampZoom m zoom)) / clampZoom m zoom = world := by
    rw [sub_sub_cancel, mul_div_cancel_right₀ _ hne]
  show (⟨_, _⟩ : Point Rat) = v.toWorld p
  simp only [zoomAt, hcancel]

theorem zoom_run_pos {m : Metrics Rat} (hm : m.Admitted) (width height : Rat)
    (events : List (Event Rat)) : 0 < ((ofSize width height).run m events).zoom := by
  have h := zoomIs_unzoomed m width height events
  cases hfresh : unzoomed events with
  | true =>
    rw [hfresh] at h
    rw [h]
    exact_mod_cast one_pos
  | false =>
    rw [hfresh] at h
    obtain ⟨wanted, hwanted⟩ := h
    rw [hwanted]
    exact clampZoom_pos hm wanted

/-- Whatever is done to a new view, its zoom stays positive, so that it is never flat, and the plane
and the screen lead to each other.  The wheel keeps the point of the plane that is under the cursor,
however far it is turned, and the two zoom buttons keep the one in the middle. -/
theorem never_degenerates {m : Metrics Rat} (hm : m.Admitted) (width height : Rat)
    (events : List (Event Rat)) :
    let v := (ofSize width height).run m events
    0 < v.zoom ∧ v.isFlat = false ∧
      (∀ p, v.toScreen (v.toWorld p) = p) ∧ (∀ p, v.toWorld (v.toScreen p) = p) ∧
      (∀ p delta pinch, (v.wheel m p delta pinch).toWorld p = v.toWorld p) ∧
      (v.zoomIn m).toWorld v.center = v.toWorld v.center ∧
      (v.zoomOut m).toWorld v.center = v.toWorld v.center := by
  intro v
  have hpos : 0 < v.zoom := zoom_run_pos hm width height events
  have hflat : v.isFlat = false := by
    rw [isFlat, beq_eq_false_iff_ne]
    exact_mod_cast hpos.ne'
  exact ⟨hpos, hflat, toScreen_toWorld hpos.ne', toWorld_toScreen hpos.ne',
    fun p delta pinch => toWorld_zoomAt hm v p _, toWorld_zoomAt hm v v.center _,
    toWorld_zoomAt hm v v.center _⟩

/-- Limits the wrong way round, and a wheel that asks for a zoom below zero. -/
theorem never_degenerates_crossed :
    let m := { Canvas.exactMetrics with minZoom := 3, maxZoom := 2 }
    let v := (ofSize (1280 : Rat) 800).run m
      [.pan 30 (-40), .wheel ⟨320, 240⟩ (-200) true, .zoomOut]
    m.Admitted ∧ 0 < v.zoom ∧ v.zoom + -5000 * m.wheelFactor * v.zoom < 0 ∧
      (v.wheel m ⟨10, 20⟩ 5000 false).toWorld ⟨10, 20⟩ = v.toWorld ⟨10, 20⟩ := by
  intro m v
  have hm : m.Admitted := by constructor <;> with_unfolding_all decide
  obtain ⟨hpos, -, -, -, hwheel, -⟩ := never_degenerates hm 1280 800
    [.pan 30 (-40), .wheel ⟨320, 240⟩ (-200) true, .zoomOut]
  exact ⟨hm, hpos, by decide +kernel, hwheel ⟨10, 20⟩ 5000 false⟩

theorem zoomWithin_run_iff (m : Metrics Rat) (width height : Rat) (events : List (Event Rat)) :
    m.ZoomWithin ((ofSize width height).run m events).zoom ↔
      m.minZoom ≤ m.maxZoom ∧ (unzoomed events = true → m.ZoomWithin 1) := by
  have h := zoomIs_unzoomed m width height events
  cases hfresh : unzoomed events with
  | true =>
    rw [hfresh] at h
    have hone : ((ofSize width height).run m events).zoom = 1 := by exact_mod_cast h
    rw [hone]
    exact ⟨fun hin => ⟨hin.1.trans hin.2, fun _ => hin⟩, fun hin => hin.2 rfl⟩
  | false =>
    rw [hfresh] at h
    obtain ⟨wanted, hwanted⟩ := h
    rw [hwanted]
    exact ⟨fun hin => ⟨hin.1.trans hin.2, nofun⟩, fun hin => zoomWithin_clampZoom hin.1 wanted⟩

end Viewport

/-! ## The view of a canvas -/

namespace Engine

variable {α : Type}

theorem viewport_beginDrag (e : Engine α) (g : Graph α) (id : String) (world : Point α)
    (shift : Bool) : (e.beginDrag g id world shift).viewport = e.viewport := by
  unfold beginDrag
  dsimp only
  split <;> rfl

variable [Scalar α]

theorem viewport_pointerDown (e : Engine α) (s : Store α) (p : Point α) (primary shift : Bool) :
    (e.pointerDown s p primary shift).1.viewport = e.viewport := by
  have hview : (if e.gesture.isSome then e.cancel else e).viewport = e.viewport := by
    split <;> rfl
  unfold pointerDown
  generalize (if e.gesture.isSome then e.cancel else e) = e' at hview
  dsimp only
  split
  · exact hview
  · rename_i hit _
    split
    · exact hview
    · cases hit with
      | outputPin id => exact hview
      | inputPin id => exact hview
      | node id => exact (viewport_beginDrag e' s.graph id _ shift).trans hview
      | group id => exact (viewport_beginDrag e' s.graph id _ shift).trans hview
      | canvas =>
        dsimp only
        split
        · exact hview
        · exact hview

theorem viewport_pointerUp (e : Engine α) (s : Store α) (p : Point α) :
    (e.pointerUp s p).1.viewport = e.viewport := by
  unfold pointerUp
  cases e.gesture with
  | none => rfl
  | some g =>
    cases g with
    | panning last => rfl
    | dragging ids start positions => rfl
    | connecting anchor fromInput last =>
      dsimp only
      split <;> rfl

end Engine

namespace Canvas

section Seen

variable {α : Type} [Scalar α]

/-- What an event does to the view.  The pointer pans while it moves in a gesture that began on the
empty canvas. -/
def viewEvents (c : Canvas α) : Event α → List (Viewport.Event α)
  | .move p =>
    match c.engine.gesture with
    | some (.panning last) => [.pan (p.x - last.x) (p.y - last.y)]
    | _ => []
  | .wheel p delta pinch => [.wheel p delta pinch]
  | .zoomIn => [.zoomIn]
  | .zoomOut => [.zoomOut]
  | .resetView => [.reset]
  | .resize width height => [.resize width height]
  | _ => []

/-- What a row of events does to the view. -/
def seen (c : Canvas α) : List (Event α) → List (Viewport.Event α)
  | [] => []
  | e :: rest => c.viewEvents e ++ (c.apply e).1.seen rest

theorem viewport_apply (c : Canvas α) (e : Event α) :
    (c.apply e).1.engine.viewport =
      c.engine.viewport.run c.store.metrics (c.viewEvents e) := by
  cases e with
  | down p primary shift => exact c.engine.viewport_pointerDown c.store p primary shift
  | up p => exact c.engine.viewport_pointerUp c.store p
  | move p =>
    show (c.engine.pointerMove c.store p).viewport = _
    unfold Engine.pointerMove viewEvents
    cases c.engine.gesture with
    | none => rfl
    | some g => cases g <;> rfl
  | edit op => rfl
  | cancel => rfl
  | wheel p delta pinch => rfl
  | zoomIn => rfl
  | zoomOut => rfl
  | resetView => rfl
  | resize width height => rfl
  | toggle id => rfl
  | select ids => rfl
  | deleteSelection => rfl

/-- The view of a canvas after any events is what the view events among them make of it. -/
theorem viewport_run (c : Canvas α) (events : List (Event α)) :
    (c.run events).engine.viewport = c.engine.viewport.run c.store.metrics (c.seen events) := by
  induction events generalizing c with
  | nil => rfl
  | cons e rest ih =>
    have hrest := ih (c.apply e).1
    rw [(c.attempt_apply e).metrics_eq, viewport_apply, ← Viewport.run_append] at hrest
    exact hrest

end Seen

/-- After some events on a new view its zoom lies within the limits if and only if the lower limit
does not lie above the upper one and, as long as nothing was zoomed since the view was new or was
taken back, 1 lies within them.  The same holds of the view of a new engine, whatever reaches the
canvas.  So the zoom stays within the limits for good if and only if 1 does. -/
theorem zoom_within_iff (s : Store Rat) (width height : Rat) :
    let m := s.metrics
    let fresh := Viewport.ofSize width height
    (∀ events, m.ZoomWithin (fresh.run m events).zoom ↔
      m.minZoom ≤ m.maxZoom ∧ (Viewport.unzoomed events = true → m.ZoomWithin 1)) ∧
    (∀ events, let c := Canvas.mk s (.ofSize width height)
      m.ZoomWithin (c.run events).engine.viewport.zoom ↔
        m.minZoom ≤ m.maxZoom ∧ (Viewport.unzoomed (c.seen events) = true → m.ZoomWithin 1)) ∧
    ((∀ events, m.ZoomWithin (fresh.run m events).zoom) ↔ m.ZoomWithin 1) := by
  intro m fresh
  have hview := Viewport.zoomWithin_run_iff m width height
  refine ⟨hview, fun events => ?_, fun hall => ?_, fun hone events => ?_⟩
  · intro c
    rw [viewport_run c events]
    exact hview (c.seen events)
  · exact ((hview []).mp (hall [])).2 rfl
  · exact (hview events).mpr ⟨hone.1.trans hone.2, fun _ => hone⟩

/-- Taking a view back shows it at 1, also where the lower limit is 2. -/
theorem zoom_below_limit_when_taken_back :
    let m := { exactMetrics with minZoom := 2 }
    let c := (Canvas.mk (.startWith .counting m) (.ofSize 1280 800)).run [.resetView]
    m.Admitted ∧ m.minZoom ≤ m.maxZoom ∧ c.engine.viewport.zoom < m.minZoom := by
  intro m c
  have hm : m.Admitted := by constructor <;> with_unfolding_all decide
  exact ⟨hm, by decide +kernel, by decide +kernel⟩

end Canvas
end PromptCanvas
