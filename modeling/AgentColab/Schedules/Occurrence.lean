import AgentColab.Domain.Clock
import AgentColab.Events.Hashing

/-!
# Occurrence keys and Run idempotency keys

An occurrence is named by its Schedule, its timezone and its wall-clock minute, without the fold.
Manual and retry Runs have no occurrence key.

A wall-clock minute is the number of minutes since 1970-01-01T00:00 on the wall clock.
-/

namespace AgentColab.Schedules

open AgentColab

def dayOf (m : ℤ) : ℤ := m / 1440

def timeOfDay (m : ℤ) : ℕ := (m % 1440).toNat

/-- `local.strftime("%Y-%m-%dT%H:%M")` -/
def wallMinute (m : ℤ) : String :=
  let date := Calendar.Date.ofDays (dayOf m)
  String.ofList <|
    zeroPad 4 date.year.toNat ++ ['-'] ++ zeroPad 2 date.month ++ ['-'] ++ zeroPad 2 date.day ++
      ['T'] ++ zeroPad 2 (timeOfDay m / 60) ++ [':'] ++ zeroPad 2 (timeOfDay m % 60)

example : wallMinute 29454809 = "2026-01-01T17:29" := by decide

/-- `SHA256(schedule_id | timezone | YYYY-MM-DDTHH:mm)` -/
def occurrenceKey (sha256 : Digest) (scheduleId timezone : String) (m : ℤ) : String :=
  sha256 ((scheduleId ++ "|" ++ timezone ++ "|" ++ wallMinute m).toList.flatMap
    String.utf8EncodeChar)

def scheduledIdempotencyKey (scheduleId key : String) : String :=
  "SCHEDULED:" ++ scheduleId ++ ":" ++ key

/-- `ValueError` when a part is empty or contains a colon. -/
def manualIdempotencyKey (scheduleId requesterAccountId clientKey : String) : Except String String :=
  if [scheduleId, requesterAccountId, clientKey].any
      fun part ↦ part.isEmpty || part.toList.contains ':' then
    .error "idempotency key parts must be non-empty and contain no ':'"
  else .ok ("MANUAL:" ++ scheduleId ++ ":" ++ requesterAccountId ++ ":" ++ clientKey)

/-- Run ids are generated, so they are neither empty nor contain a colon. -/
def retryIdempotencyKey (originalRunId : ℕ) (retryNo : ℕ) : Except String String :=
  if retryNo < 1 then .error "retry key requires an original run id and retry_no >= 1"
  else .ok ("RETRY:" ++ toString originalRunId ++ ":" ++ toString retryNo)

theorem scheduledIdempotencyKey_inj {s k k' : String}
    (h : scheduledIdempotencyKey s k = scheduledIdempotencyKey s k') : k = k' := by
  have h' := congrArg String.toList h
  simp only [scheduledIdempotencyKey, String.toList_append, List.append_cancel_left_eq] at h'
  exact String.toList_inj.1 h'

end AgentColab.Schedules
