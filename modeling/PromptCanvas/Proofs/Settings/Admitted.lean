import PromptCanvas.Proofs.Record.Accepted
import PromptCanvas.Settings.Basic

/-!
# Metrics that settings admit

What can be set for a canvas keeps within bounds, and so does what it is where nothing is set.  The
bounds are stated over any scalars, so that a law of the plane can ask for them in the exact reading.
-/

namespace PromptCanvas

/-- The bounds that every setting of a canvas keeps. -/
structure Metrics.Admitted {α : Type} [Scalar α] (m : Metrics α) : Prop where
  nodeWidth_pos : ((0 : Nat) : α) < m.nodeWidth
  collapsedHeight_pos : ((0 : Nat) : α) < m.collapsedHeight
  expandedHeight_pos : ((0 : Nat) : α) < m.expandedHeight
  collisionGap_nonneg : ((0 : Nat) : α) ≤ m.collisionGap
  maxPushDepth_pos : 1 ≤ m.maxPushDepth
  maxPushDepth_le : m.maxPushDepth ≤ 50
  pinRadius_pos : ((0 : Nat) : α) < m.pinRadius
  pinOffset_nonneg : ((0 : Nat) : α) ≤ m.pinOffset
  groupPadding_nonneg : ((0 : Nat) : α) ≤ m.groupPadding
  groupHeader_nonneg : ((0 : Nat) : α) ≤ m.groupHeader
  minZoom_pos : ((0 : Nat) : α) < m.minZoom
  maxZoom_pos : ((0 : Nat) : α) < m.maxZoom
  zoomStep_pos : ((0 : Nat) : α) < m.zoomStep
  wheelFactor_pos : ((0 : Nat) : α) < m.wheelFactor

namespace Canvas

/-- The usual metrics, read exactly. -/
def exactMetrics : Metrics Rat :=
  ⟨200, 50, 120, 20, 5, 12, 24, 20, 30, 1 / 10, 5, 1 / 10, 1 / 1000⟩

theorem admitted_exactMetrics : exactMetrics.Admitted := by
  constructor <;> with_unfolding_all decide

end Canvas

namespace Settings

open Record

theorem positive_eq_ok {x : Float} {j : Json} (h : Reading.positive j = .ok x) : 0 < x := by
  unfold Reading.positive at h
  cases hr : Reading.real j with
  | error ps => rw [hr] at h; cases h
  | ok y =>
    rw [hr] at h
    by_cases hy : 0 < y
    · simp only [hy, if_true, Except.ok.injEq] at h
      exact h ▸ hy
    · simp [hy, Checked.fail] at h

theorem nonNegative_eq_ok {x : Float} {j : Json} (h : Reading.nonNegative j = .ok x) : 0 ≤ x := by
  unfold Reading.nonNegative at h
  cases hr : Reading.real j with
  | error ps => rw [hr] at h; cases h
  | ok y =>
    rw [hr] at h
    by_cases hy : 0 ≤ y
    · simp only [hy, if_true, Except.ok.injEq] at h
      exact h ▸ hy
    · simp [hy, Checked.fail] at h

theorem pos_of_given {o : List (String × Json)} {name : String} {usual x : Float}
    (husual : 0 < usual) (h : Reading.given o name Reading.positive usual = .ok x) :
    ((0 : Nat) : Float) < x := by
  rcases Reading.given_eq_ok h with rfl | ⟨j, hj⟩
  · exact husual
  · exact positive_eq_ok hj

theorem nonneg_of_given {o : List (String × Json)} {name : String} {usual x : Float}
    (husual : 0 ≤ usual) (h : Reading.given o name Reading.nonNegative usual = .ok x) :
    ((0 : Nat) : Float) ≤ x := by
  rcases Reading.given_eq_ok h with rfl | ⟨j, hj⟩
  · exact husual
  · exact nonNegative_eq_ok hj

/-- Whatever is set, the metrics that are read keep their bounds. -/
theorem admitted_of_readMetrics {o : List (String × Json)} {m : Metrics Float}
    (h : readMetrics o = .ok m) : m.Admitted := by
  obtain ⟨_, wheelFactor, hrange, hwheel, rfl⟩ := Checked.ap_eq_ok.mp h
  obtain ⟨_, zoomStep, hzooms, hstep, rfl⟩ := Checked.ap_eq_ok.mp hrange
  obtain ⟨_, maxZoom, hupTo, hmax, rfl⟩ := Checked.ap_eq_ok.mp hzooms
  obtain ⟨_, minZoom, hfrom, hmin, rfl⟩ := Checked.ap_eq_ok.mp hupTo
  obtain ⟨_, groupHeader, hgroups, hheader, rfl⟩ := Checked.ap_eq_ok.mp hfrom
  obtain ⟨_, groupPadding, hpins, hpadding, rfl⟩ := Checked.ap_eq_ok.mp hgroups
  obtain ⟨_, pinOffset, hreach, hoffset, rfl⟩ := Checked.ap_eq_ok.mp hpins
  obtain ⟨_, pinRadius, hpushes, hradius, rfl⟩ := Checked.ap_eq_ok.mp hreach
  obtain ⟨_, depth, hspaced, hdepth, rfl⟩ := Checked.ap_eq_ok.mp hpushes
  obtain ⟨_, gap, hheights, hgap, rfl⟩ := Checked.ap_eq_ok.mp hspaced
  obtain ⟨_, expanded, hsizes, hexpanded, rfl⟩ := Checked.ap_eq_ok.mp hheights
  obtain ⟨width, collapsed, hwidth, hcollapsed, rfl⟩ := Checked.both_eq_ok.mp hsizes
  have hbounds : 1 ≤ depth ∧ depth ≤ 50 := by
    obtain ⟨n, hn, rfl⟩ := map_eq_ok.mp hdepth
    rcases Reading.given_eq_ok hn with rfl | ⟨j, hj⟩
    · decide
    · obtain ⟨hleast, hmost⟩ := Reading.wholeWithin_eq_ok hj
      omega
  exact
    { nodeWidth_pos := pos_of_given (by decide) hwidth
      collapsedHeight_pos := pos_of_given (by decide) hcollapsed
      expandedHeight_pos := pos_of_given (by decide) hexpanded
      collisionGap_nonneg := nonneg_of_given (by decide) hgap
      maxPushDepth_pos := hbounds.1
      maxPushDepth_le := hbounds.2
      pinRadius_pos := pos_of_given (by decide) hradius
      pinOffset_nonneg := nonneg_of_given (by decide) hoffset
      groupPadding_nonneg := nonneg_of_given (by decide) hpadding
      groupHeader_nonneg := nonneg_of_given (by decide) hheader
      minZoom_pos := pos_of_given (by decide) hmin
      maxZoom_pos := pos_of_given (by decide) hmax
      zoomStep_pos := pos_of_given (by decide) hstep
      wheelFactor_pos := pos_of_given (by decide) hwheel }

end Settings
end PromptCanvas
