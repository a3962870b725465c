import AgentColab.Tasks.Projector
import AgentColab.Verification.Following

/-!
# The rows and their rebuild

A rebuild makes the same row from an Event as the handlers, but for two exceptions. When a join is
recorded the row of the parent gets a second reading of the clock, which is later than the Event and
finer. And the verdict on a run whose target is a phase may name a Task: the handlers write no row
for it, and the projector does.
-/

namespace AgentColab.Verification

open AgentColab Transaction Database Tasks

section

variable {cfg : Config} {inp : ℕ → TaskInput} {db db' : TaskTables} {n n' : ℕ} {call : Call}

/-- The clock stands still on a whole millisecond. -/
def Still (inp : ℕ → TaskInput) : Prop :=
  ∀ j k, (inp k).now = (inp j).now.millisecond * 1000

/-- What the projector makes of this command is what the handlers make of it: a verdict on a run
that moves no Task names no Task that exists, and the clock stands still when the end of a Task is
reported to a parent whose join is not recorded yet. -/
structure Rebuildable (db : TaskTables) (_ : ℕ) (call : Call) (inp : ℕ → TaskInput) : Prop where
  quiet : ∀ ctx vid result run t, call = .run ctx (.verdict vid result) →
    db.verificationRuns vid = some run → targetTask run = none → run.taskId = some t →
    db.stream "task" t = []
  still : ∀ t s parent p, Reports db call t → db.stateOf t = .ok s →
    orElse s.parentTaskId none = some parent → db.stateOf parent = .ok p →
    p.joinSatisfied = false → Still inp

/-- A command keeps the rows as a rebuild would make them. -/
theorem Performed.projected (hdb : db.Sound n) (h : Projected db)
    (hrebuildable : Rebuildable db n call inp) (hperformed : Performed cfg inp db n call db' n') :
    Projected db' := by
  refine hperformed.preserves ?_ ?_ ?_ ?_ hdb h
  · exact fun mid db' hevents hrows hI ↦ hI.congr hevents hrows
  · exact fun hdb hI hstep hfresh ↦ hI.step hdb hstep hfresh
  · rintro mid db' k n' t s e hmid hI hjoin ⟨child, s₀, p, hreports, hs₀, hparent, hp, hpending⟩
    have hstill := hrebuildable.still child s₀ t p hreports hs₀ hparent hp hpending
    -- both readings of the clock are the same
    have htime : (inp (e.recordedSeq + 1)).now = e.occurredAt := by
      rw [hjoin.occurredAt]
      exact hstill _ _
    have hstep := hjoin.step
    rw [htime] at hstep
    refine hI.step hmid hstep fun hcreate ↦ ?_
    rw [hjoin.type] at hcreate
    exact absurd hcreate (by decide)
  · rintro mid db' n' e hmid hI hsame hnote hof
    refine hI.noted hmid hnote fun t hresult htask ↦ ?_
    obtain ⟨ctx, vid, result, run, hcall, hfound, hnone, hnames⟩ := hof hresult
    have hnil := hrebuildable.quiet ctx vid result run t hcall hfound hnone (hnames ▸ htask)
    rwa [TaskTables.stream, hsame]

end

namespace Sample

/-- A run whose target is a phase, and which names the Task. -/
def phaseRun : CreateVerificationRun where
  targetType := "phase"
  targetId := "P1"
  implementerAccountId := "agent-2"
  verifierAccountId := "agent-1"
  implementerCredentialFingerprint := "a"
  verifierCredentialFingerprint := "b"
  taskId := some "task-1"

def phaseCalls : List Call := [task, .run (verifier "run") (.create phaseRun),
  .run (verifier "assign") (.assign runId), .run (verifier "start") (.start runId),
  .run (verifier "verdict") (.verdict runId .passed)]

end Sample

end AgentColab.Verification
