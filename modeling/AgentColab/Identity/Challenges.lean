import AgentColab.Digest.Sha256
import AgentColab.Domain.Clock
import Mathlib.Data.List.Nodup

/-!
# Challenges for an external identity

One pair of a provider instance and an external user: the rows of its challenges and its link. The
failures and the lock stand in the row of a challenge; every call reads the latest row without a
lock and writes back what it makes of it. A wrong code ends in an exception: the handler of the
slash command commits, the endpoint of the web path rolls back.

Every reading of the clock is an argument.
-/

namespace AgentColab.Identity

/-! ## Rows -/

/-- `LINK_CHALLENGE_TTL_MIN` -/
def challengeTtl : Time := 10 * 60 * 1000000

/-- `LINK_CHALLENGE_MAX_FAILURES` -/
def maxFailures : ℕ := 5

/-- `LINK_CHALLENGE_LOCKOUT_MIN` -/
def lockout : Time := 15 * 60 * 1000000

/-- `_code_hash` -/
def codeHash (code : String) : String := Sha256.hexDigest code.toUTF8.toList

/-- A row of `identity_link_challenges`. -/
structure Challenge where
  id : ℕ
  codeHash : String
  accountId : Option String
  expiresAt : Time
  usedAt : Option Time
  failures : ℕ
  lockedUntil : Option Time

/-- The column `created_at`, as `insert_challenge` computes it. -/
def Challenge.createdAt (c : Challenge) : Time := c.expiresAt - 10 * 60 * 1000000

/-- The order of `latest_challenge`. -/
def Challenge.Before (c c' : Challenge) : Prop :=
  c.createdAt < c'.createdAt ∨ c.createdAt = c'.createdAt ∧ c.id < c'.id

instance (c c' : Challenge) : Decidable (c.Before c') := by
  unfold Challenge.Before
  infer_instance

def newer : Option Challenge → Challenge → Option Challenge
  | none, c => some c
  | some best, c => if best.Before c then some c else some best

/-- `latest_challenge` -/
def latest (challenges : List Challenge) : Option Challenge := challenges.foldl newer none

def Challenge.Locked (c : Challenge) (now : Time) : Prop := ∃ u ∈ c.lockedUntil, now < u

instance (c : Challenge) (now : Time) : Decidable (c.Locked now) := by
  unfold Challenge.Locked
  infer_instance

/-- `replace(ch, failures=failures, locked_until=locked)` after a wrong code. -/
def Challenge.failed (c : Challenge) (now : Time) : Challenge :=
  { c with
    failures := c.failures + 1
    lockedUntil := if maxFailures < c.failures + 1 then some (now + lockout) else none }

/-- `replace(ch, used_at=now, account_uuid=account_uuid)` -/
def Challenge.used (c : Challenge) (now : Time) (account : String) : Challenge :=
  { c with usedAt := some now, accountId := some account }

/-- `update_challenge`: the row with the identity of `ch` gets its columns. -/
def Challenge.update (ch c : Challenge) : Challenge :=
  if c.id = ch.id then
    { c with
      usedAt := ch.usedAt
      failures := ch.failures
      lockedUntil := ch.lockedUntil
      accountId := ch.accountId }
  else c

inductive LinkStatus where
  | pending
  | pendingAdmin
  | active
  | suspended
  | revoked
deriving DecidableEq

inductive VerificationMethod where
  | signedChallenge
  | adminApproval
deriving DecidableEq

/-- The row of `external_identity_links` for the pair. -/
structure Link where
  account : String
  method : VerificationMethod
  status : LinkStatus
  verifiedAt : Option Time
deriving DecidableEq

/-- `NON_REVOKED` -/
def Link.NonRevoked (l : Link) : Prop := l.status ≠ .revoked

instance (l : Link) : Decidable l.NonRevoked := by
  unfold Link.NonRevoked
  infer_instance

/-- The argument `path` of `confirm_challenge`. -/
inductive Path where
  | web
  | command

/-- Who calls `confirm_challenge`. -/
inductive Caller where
  | endpoint
  | slash
deriving DecidableEq

/-! ## Transactions -/

/-- An open transaction: `start_challenge` with the row that it is about to insert; a confirmation
of a wrong code; one of the right code, with the link that it has found; an approval; and a
suspension or a revocation. -/
inductive Transaction where
  | start (challenge : Option Challenge)
  | wrong (challenge : Challenge) (now : Time) (caller : Caller)
  | right (challenge : Challenge) (code : String) (path : Path) (account : String) (checked : Time)
      (found : Option (Time × Option Link))
  | approve (link : Link) (now : Time)
  | transition (link : Link) (status : LinkStatus)

def Transaction.Confirms : Transaction → Prop
  | wrong .. => True
  | right .. => True
  | _ => False

instance : (t : Transaction) → Decidable t.Confirms
  | .start _ => inferInstanceAs (Decidable False)
  | .wrong .. => inferInstanceAs (Decidable True)
  | .right .. => inferInstanceAs (Decidable True)
  | .approve .. => inferInstanceAs (Decidable False)
  | .transition .. => inferInstanceAs (Decidable False)

/-- A code that has been compared. -/
structure Attempt where
  time : Time
  wrong : Bool

/-- A code that has been accepted: the row, the time of the check and the expiry. -/
structure Acceptance where
  challenge : ℕ
  time : Time
  expiresAt : Time

/-- The rows of the pair and the open transactions; `attempts`, the last one first, and `accepted`
record what has happened. -/
structure World where
  challenges : List Challenge
  link : Option Link
  transactions : List (ℕ × Transaction)
  attempts : List Attempt
  accepted : List Acceptance

namespace World

def find (w : World) (i : ℕ) : Option Transaction := w.transactions.lookup i

def close (w : World) (i : ℕ) : World :=
  { w with transactions := w.transactions.filter (·.1 ≠ i) }

def set (w : World) (i : ℕ) (t : Transaction) : World :=
  { w with transactions := (i, t) :: w.transactions.filter (·.1 ≠ i) }

/-- The link that `confirm_challenge` writes. -/
def confirmed (path : Path) (account : String) (now : Time) : Link :=
  match path with
  | .web => ⟨account, .signedChallenge, .active, some now⟩
  | .command => ⟨account, .adminApproval, .pendingAdmin, none⟩

/-- `_check_code`, with the comparison that it makes. -/
def check (w : World) (i : ℕ) (caller : Caller) (path : Path) (account code : String) (now : Time) :
    Option World :=
  match latest w.challenges with
  | none => none
  | some ch =>
    if ch.Locked now then none
    else if ch.usedAt ≠ none then none
    else if ch.codeHash ≠ codeHash code then
      some { w.set i (.wrong ch now caller) with attempts := ⟨now, true⟩ :: w.attempts }
    else if ch.expiresAt ≤ now then some { w with attempts := ⟨now, false⟩ :: w.attempts }
    else some
      { w.set i (.right ch code path account now none) with
        attempts := ⟨now, false⟩ :: w.attempts }

end World

/-! ## Steps -/

/-- The statements of the transactions. A transaction that is refused or rolled back takes the step
`stop`. -/
inductive Label where
  | begin (i : ℕ)
  | look (i : ℕ) (now : Time) (code : String) (id : ℕ)
  | check (i : ℕ) (caller : Caller) (path : Path) (account code : String) (now : Time)
  | readLink (i : ℕ) (now : Time)
  | approve (i : ℕ) (now : Time)
  | suspend (i : ℕ)
  | revoke (i : ℕ)
  | commit (i : ℕ)
  | stop (i : ℕ)

/-- One statement; `none` when the transaction cannot execute it now, or is refused. -/
def World.step (w : World) : Label → Option World
  | .begin i =>
    match w.find i with
    | none => if ∃ l ∈ w.link, l.NonRevoked then none else some (w.set i (.start none))
    | some _ => none
  | .look i now code id =>
    match w.find i with
    | some (.start none) =>
      if ∃ c ∈ latest w.challenges, c.Locked now then none
      else some (w.set i
        (.start (some ⟨id, codeHash code, none, now + challengeTtl, none, 0, none⟩)))
    | _ => none
  | .check i caller path account code now =>
    match w.find i with
    | none => w.check i caller path account code now
    | some _ => none
  | .readLink i now =>
    match w.find i with
    | some (.right ch code path account checked none) =>
      if ∃ l ∈ w.link, l.NonRevoked then none
      else some (w.set i (.right ch code path account checked (some (now, w.link))))
    | _ => none
  | .approve i now =>
    match w.find i, w.link with
    | none, some l =>
      if l.status = .pendingAdmin then some (w.set i (.approve l now)) else none
    | _, _ => none
  | .suspend i =>
    match w.find i, w.link with
    | none, some l =>
      if l.status = .active ∨ l.status = .pendingAdmin ∨ l.status = .pending then
        some (w.set i (.transition l .suspended))
      else none
    | _, _ => none
  | .revoke i =>
    match w.find i, w.link with
    | none, some l =>
      if l.NonRevoked then some (w.set i (.transition l .revoked)) else none
    | _, _ => none
  | .commit i =>
    match w.find i with
    | some (.start (some c)) =>
      if ∀ c' ∈ w.challenges, c'.id ≠ c.id then
        some { w.close i with challenges := w.challenges ++ [c] }
      else none
    | some (.wrong ch now .slash) =>
      some { w.close i with challenges := w.challenges.map (ch.failed now).update }
    | some (.right ch _ path account checked (some (now, existing))) =>
      -- the second of two inserts violates the unique key of the pair
      if existing = none ∧ w.link ≠ none then none
      else some
        { w.close i with
          challenges := w.challenges.map (ch.used now account).update
          link := some (confirmed path account now)
          accepted := w.accepted ++ [⟨ch.id, checked, ch.expiresAt⟩] }
    | some (.approve l now) =>
      some { w.close i with link := some { l with status := .active, verifiedAt := some now } }
    | some (.transition l status) => some { w.close i with link := some { l with status := status } }
    | _ => none
  | .stop i => some (w.close i)

def World.start (link : Option Link) : World where
  challenges := []
  link := link
  transactions := []
  attempts := []
  accepted := []

inductive Run (C : World → Label → Prop) : World → List Label → World → Prop
  | nil (w : World) : Run C w [] w
  | cons {w w₁ w' : World} {l : Label} {ls : List Label} (hstep : w.step l = some w₁) (hC : C w l)
      (h : Run C w₁ ls w') : Run C w (l :: ls) w'

/-! ## What is promised -/

/-- The number of wrong codes that are less than a lockout period before `t`. -/
def recent (attempts : List Attempt) (t : Time) : ℕ :=
  attempts.countP fun a ↦ a.wrong ∧ t < a.time + lockout

/-- No code is compared when more than the permitted number of wrong codes are recent. -/
def Bounded : List Attempt → Prop
  | [] => True
  | a :: before => recent before a.time ≤ maxFailures ∧ Bounded before

/-- The number of wrong codes within the lockout period from `t` on. -/
def wrongWithin (attempts : List Attempt) (t : Time) : ℕ :=
  attempts.countP fun a ↦ a.wrong ∧ t ≤ a.time ∧ a.time < t + lockout

def World.Active (w : World) : Prop := ∃ l ∈ w.link, l.status = .active

/-- The commit of a confirmation of the right code on the web path, or of an approval. -/
def World.Vouched (w : World) (label : Label) : Prop :=
  ∃ i, label = .commit i ∧
    ((∃ ch code account checked found, w.find i = some (.right ch code .web account checked found) ∧
      ch ∈ w.challenges ∧ ch.codeHash = codeHash code) ∨
    ∃ l now, w.find i = some (.approve l now) ∧ l.status = .pendingAdmin)

structure Guarded (w : World) : Prop where
  /-- Within a lockout period one wrong code more than permitted is compared, at most. -/
  within : ∀ t, wrongWithin w.attempts t ≤ maxFailures + 1
  /-- After that many every code is refused. -/
  refused : Bounded w.attempts
  once : (w.accepted.map Acceptance.challenge).Nodup
  unexpired : ∀ a ∈ w.accepted, a.time < a.expiresAt
  active : ∀ label w', w.step label = some w' → ¬w.Active → w'.Active → w.Vouched label

/-! ## The condition -/

/-- No confirmation is between its comparison and its end. -/
def World.Alone (w : World) : Prop := ∀ t ∈ w.transactions, ¬t.2.Confirms

instance (w : World) : Decidable w.Alone := by
  unfold World.Alone
  infer_instance

/-- A code is compared, and a challenge is inserted, when no confirmation is between its comparison
and its end; a wrong code comes from the slash command, is counted, and is not compared by a clock
that is behind the challenge; and no wrong code is recent when a challenge is inserted. -/
def Separate (w : World) : Label → Prop
  | .check _ caller _ _ code now =>
    w.Alone ∧ ∀ ch ∈ latest w.challenges, ch.createdAt ≤ now ∧
      (ch.codeHash ≠ codeHash code → caller = .slash)
  | .commit i =>
    match w.find i with
    | some (.start (some c)) => w.Alone ∧ ∀ a ∈ w.attempts, a.wrong → a.time + lockout ≤ c.createdAt
    | _ => True
  | .stop i =>
    match w.find i with
    | some (.wrong ..) => False
    | _ => True
  | _ => True

instance (w : World) (l : Label) : Decidable (Separate w l) := by
  unfold Separate
  split
  · infer_instance
  · split <;> infer_instance
  · split <;> infer_instance
  · infer_instance

end AgentColab.Identity
