import AgentColab.Notifications.Rules
import Mathlib.Tactic.SplitIfs

/-!
# The end of the quiet hours

A notification of the quiet hours is put off to the local time at which they end, of which
`astimezone` takes the first instant. The clock of a zone is put forward and back: a local time can
be skipped, and it can be shown twice. So the notification is put off to the first instant after
`now` that is not quiet just when the clock leaves the quiet hours by coming to their end.
-/

namespace AgentColab.Notifications

/-- What a zone makes of a local time of fold 0. -/
structure Zone.Lawful (z : Zone) : Prop where
  /-- The first instant that shows it. -/
  shown : ∀ u, z.toLocal (z.toUtc (z.toLocal u)) = z.toLocal u ∧ z.toUtc (z.toLocal u) ≤ u
  /-- Where the clock is put forward over it, the instant that would show it by the clock before. -/
  skipped : ∀ x, (∀ u, z.toLocal u ≠ x) → ∃ change, (∀ u, z.toLocal u < x ↔ u < change) ∧
    z.toUtc x = change + (x - (z.toLocal (change - 1) + 1))

namespace QuietHours

/-- The two times are times of a day. -/
structure Valid (q : QuietHours) : Prop where
  start_nonneg : 0 ≤ q.start
  start_lt : q.start < day
  ends_nonneg : 0 ≤ q.ends
  ends_lt : q.ends < day
  ne : q.start ≠ q.ends

/-- Whether a local time is in the window. -/
def Quiet (q : QuietHours) (x : ℤ) : Prop :=
  if q.ends ≤ q.start then q.start ≤ x % day ∨ x % day < q.ends
  else q.start ≤ x % day ∧ x % day < q.ends

/-- The next local time that has the end's time of day. -/
def nextEnd (q : QuietHours) (x : ℤ) : ℤ := x + (q.ends - x) % day

/-- An instant of the window is put off to the first instant after it that is not in the window. -/
def DefersToEnd (q : QuietHours) (zoneInfo : String → Zone) (now : Time) : Prop :=
  ∃ later, q.deferral zoneInfo now = some later ∧ now < later ∧ q.deferral zoneInfo later = none ∧
    ∀ u, now < u → u < later → q.deferral zoneInfo u ≠ none

/-- The clock first leaves the window by coming to the end: it shows it, and has not shown it up to
now; or it is put forward over it, and leaves the window as long after the change as the end is
after the time at which the clock is put forward. -/
def LeavesAtEnd (q : QuietHours) (z : Zone) (now : Time) : Prop :=
  ∃ x, now < x ∧ ¬q.Quiet (z.toLocal x) ∧ (∀ u, now < u → u < x → q.Quiet (z.toLocal u)) ∧
    ((z.toLocal x = q.nextEnd (z.toLocal now) ∧
        ∀ u ≤ now, z.toLocal u ≠ q.nextEnd (z.toLocal now)) ∨
      (∀ u, z.toLocal u ≠ q.nextEnd (z.toLocal now)) ∧
        ∃ change, (∀ u, z.toLocal u < q.nextEnd (z.toLocal now) ↔ u < change) ∧
          x - change = q.nextEnd (z.toLocal now) - (z.toLocal (change - 1) + 1))

variable {q : QuietHours} {zoneInfo : String → Zone} {now : Time} {x : ℤ}

theorem Valid.not_quiet_nextEnd (hq : q.Valid) (x : ℤ) : ¬q.Quiet (q.nextEnd x) := by
  obtain ⟨hs, hs', he, he', hne⟩ := hq
  have hend : q.nextEnd x % day = q.ends := by
    rw [nextEnd, day] at *
    omega
  rw [Quiet, hend]
  split_ifs <;> omega

theorem deferral_eq_none_iff :
    q.deferral zoneInfo now = none ↔ ¬q.Quiet ((zoneInfo q.timezone).toLocal now) := by
  simp only [deferral, Quiet]
  by_cases hcross : q.ends ≤ q.start <;> simp [hcross]

/-- The day that the code takes is that of the next end. -/
theorem Valid.deferral_eq (hq : q.Valid) (h : q.Quiet ((zoneInfo q.timezone).toLocal now)) :
    q.deferral zoneInfo now = some
      ((zoneInfo q.timezone).toUtc (q.nextEnd ((zoneInfo q.timezone).toLocal now))) := by
  have hsome : q.deferral zoneInfo now ≠ none := fun hnone ↦ deferral_eq_none_iff.1 hnone h
  obtain ⟨hs, hs', he, he', hne⟩ := hq
  dsimp only [deferral] at hsome ⊢
  generalize (zoneInfo q.timezone).toLocal now = x at h hsome ⊢
  rw [Quiet] at h
  rw [if_neg fun hout ↦ hsome (if_pos hout)]
  congr 2
  clear hsome
  simp only [Bool.or_eq_true, Bool.not_eq_true', decide_eq_true_eq, decide_eq_false_iff_not]
  rw [nextEnd]
  by_cases hcross : q.ends ≤ q.start
  · rw [if_pos hcross] at h
    split_ifs <;> simp only [day] at * <;> omega
  · rw [if_neg hcross] at h
    rw [if_pos (Or.inl hcross)]
    simp only [day] at *
    omega

theorem defersToEnd_iff (hq : q.Valid) (hz : (zoneInfo q.timezone).Lawful)
    (hnow : q.deferral zoneInfo now ≠ none) :
    q.DefersToEnd zoneInfo now ↔ q.LeavesAtEnd (zoneInfo q.timezone) now := by
  have hquiet := not_not.1 (deferral_eq_none_iff.not.1 hnow)
  have hout := hq.not_quiet_nextEnd ((zoneInfo q.timezone).toLocal now)
  constructor
  · rintro ⟨later, hlater, hlt, hnone, hfirst⟩
    obtain rfl := Option.some.inj ((hq.deferral_eq hquiet).symm.trans hlater)
    refine ⟨_, hlt, deferral_eq_none_iff.1 hnone, fun u hu hu' ↦
      not_not.1 (deferral_eq_none_iff.not.1 (hfirst u hu hu')), ?_⟩
    by_cases hshown : ∃ u, (zoneInfo q.timezone).toLocal u =
        q.nextEnd ((zoneInfo q.timezone).toLocal now)
    · obtain ⟨u, hu⟩ := hshown
      refine .inl ⟨hu ▸ (hz.shown u).1, fun v hv heq ↦ ?_⟩
      exact absurd ((heq ▸ (hz.shown v).2).trans hv) (not_le.2 hlt)
    · obtain ⟨change, hchange, heq⟩ := hz.skipped _ (not_exists.1 hshown)
      exact .inr ⟨not_exists.1 hshown, change, hchange, by rw [heq, add_sub_cancel_left]⟩
  · rintro ⟨x, hlt, hx, hfirst, ⟨hend, hpast⟩ | ⟨hnever, change, hchange, hlate⟩⟩
    · -- the first instant that shows the end is not past
      have hlater := hz.shown x
      rw [hend] at hlater
      refine ⟨x, ?_, hlt, deferral_eq_none_iff.2 hx, fun u hu hu' ↦
        deferral_eq_none_iff.not.2 (not_not.2 (hfirst u hu hu'))⟩
      rw [hq.deferral_eq hquiet, hlater.2.antisymm (not_lt.1 fun hearly ↦ hout ?_)]
      have hafter := not_le.1 fun hle ↦ hpast _ hle hlater.1
      exact hlater.1 ▸ hfirst _ hafter hearly
    · obtain ⟨change', hchange', heq⟩ := hz.skipped _ hnever
      have hsame : change' = change := eq_of_forall_lt_iff fun u ↦
        (hchange' u).symm.trans (hchange u)
      refine ⟨x, ?_, hlt, deferral_eq_none_iff.2 hx, fun u hu hu' ↦
        deferral_eq_none_iff.not.2 (not_not.2 (hfirst u hu hu'))⟩
      rw [hq.deferral_eq hquiet, heq, hsame, ← hlate, add_sub_cancel]

/-! ## The clock of Berlin -/

namespace Sample

def setBack : Time := 1792890000000000

/-- The clock is put back from three o'clock to two. -/
def berlin : Zone where
  toLocal u := if u < setBack then u + 2 * hour else u + hour
  toUtc x := if x < setBack + 2 * hour then x - 2 * hour else x - hour

theorem berlin_lawful : berlin.Lawful where
  shown u := by
    have hpos : 0 < hour := by decide
    dsimp only [berlin]
    constructor <;> grind
  skipped x hx := by
    have hpos : 0 < hour := by decide
    refine absurd ?_ (hx (berlin.toUtc x))
    dsimp only [berlin]
    grind

def night : QuietHours := ⟨22 * hour, 2 * hour + hour / 2, "Europe/Berlin"⟩

theorem night_valid : night.Valid := by constructor <;> decide

theorem night_defersToEnd : night.DefersToEnd (fun _ ↦ berlin) (setBack - 4 * hour) ↔
    night.LeavesAtEnd berlin (setBack - 4 * hour) :=
  defersToEnd_iff night_valid berlin_lawful (by decide)

end Sample

open Sample

/-- At ten past two, when the clock shows it again. -/
theorem not_defersToEnd : ¬∀ (q : QuietHours) (zoneInfo : String → Zone) (now : Time), q.Valid →
    (zoneInfo q.timezone).Lawful → q.deferral zoneInfo now ≠ none → q.DefersToEnd zoneInfo now := by
  intro h
  obtain ⟨later, hlater, hlt, -⟩ :=
    h night (fun _ ↦ berlin) (setBack + hour / 6) night_valid berlin_lawful (by decide)
  obtain rfl : setBack - hour / 2 = later := Option.some.inj hlater
  exact absurd hlt (by decide)

end QuietHours

end AgentColab.Notifications
