import AgentColab.Brainstorm.Engine
import Mathlib.Data.List.Infix

/-!
# The accounts of a brainstorm session

A turn is recorded under the number that its transaction has read, so the unique index lets it
through only if no other turn has been recorded since. `ReadRow` and `ReadParticipants` say what
else a read is worth later.
-/

namespace AgentColab.Brainstorm

open List Option

/-! ## The stream -/

/-- The limits that the session has had, in the order of its Events. -/
def limitsOf (stream : List Event) : List Limits :=
  stream.filterMap fun
    | .opened limits => some limits
    | .resumed limits => some limits
    | _ => none

/-- Who has contributed, in the order of the Events. -/
def contributors (stream : List Event) : List Account :=
  stream.filterMap fun
    | .ideaRecorded account .. => some account
    | _ => none

def sinceResume (stream : List Event) : List Account :=
  stream.foldl (fun accounts e ↦
    match e with
    | .resumed _ => []
    | .ideaRecorded account .. => accounts ++ [account]
    | _ => accounts) []

/-- Events that neither resume the session nor record a turn. -/
def Event.Silent : Event → Prop
  | .opened _ => False
  | .resumed _ => False
  | .ideaRecorded .. => False
  | _ => True

section

variable {stream : List Event}

variable {e : Event}

theorem limitsOf_silent (h : e.Silent) : limitsOf (stream ++ [e]) = limitsOf stream := by
  cases e with
  | opened | resumed | ideaRecorded => exact h.elim
  | _ => simp [limitsOf]

theorem contributors_silent (h : e.Silent) :
    contributors (stream ++ [e]) = contributors stream := by
  cases e with
  | opened | resumed | ideaRecorded => exact h.elim
  | _ => simp [contributors]

theorem sinceResume_silent (h : e.Silent) : sinceResume (stream ++ [e]) = sinceResume stream := by
  cases e with
  | opened | resumed | ideaRecorded => exact h.elim
  | _ => simp [sinceResume]

@[simp] theorem limitsOf_idea (a : Account) (type : String) (n : ℕ) (body : String) :
    limitsOf (stream ++ [.ideaRecorded a type n body]) = limitsOf stream := by
  simp [limitsOf]

@[simp] theorem contributors_idea (a : Account) (type : String) (n : ℕ) (body : String) :
    contributors (stream ++ [.ideaRecorded a type n body]) = contributors stream ++ [a] := by
  simp [contributors]

@[simp] theorem sinceResume_idea (a : Account) (type : String) (n : ℕ) (body : String) :
    sinceResume (stream ++ [.ideaRecorded a type n body]) = sinceResume stream ++ [a] := by
  simp [sinceResume]

@[simp] theorem limitsOf_resumed (l : Limits) :
    limitsOf (stream ++ [.resumed l]) = limitsOf stream ++ [l] := by
  simp [limitsOf]

@[simp] theorem contributors_resumed (l : Limits) :
    contributors (stream ++ [.resumed l]) = contributors stream := by
  simp [contributors]

@[simp] theorem sinceResume_resumed (l : Limits) : sinceResume (stream ++ [.resumed l]) = [] := by
  simp [sinceResume]

end

/-! ## The invariant of the tables -/

def isAgent (participants : List Participant) (account : Account) : Bool :=
  participants.any fun p ↦ p.account = account ∧ p.role = .agent

def Tables.turnsOf (t : Tables) (account : Account) : ℕ := (t.turns.map Turn.account).count account

/-- What the tables of a session count. -/
structure Accounted (t : Tables) : Prop where
  numbered : t.turns.map Turn.seq = List.range' 1 t.row.turnNo
  contributed : contributors t.stream = t.turns.map Turn.account
  seated : (t.participants.map Participant.account).Nodup
  known : ∀ x ∈ t.turns, x.account ∈ t.participants.map Participant.account
  taken : ∀ p ∈ t.participants, p.turnsTaken = t.turnsOf p.account
  index : t.row.turnIndex = (t.turns.map Turn.account).countP (isAgent t.participants)
  limits : t.row.limits ∈ limitsOf t.stream
  total : ∃ l ∈ limitsOf t.stream, t.row.turnNo ≤ l.totalTurns
  perAgent : ∀ p ∈ t.participants, p.role = .agent →
    ∃ l ∈ limitsOf t.stream, t.turnsOf p.account ≤ l.turnsPerAgent
  last : ∀ a, (sinceResume t.stream).getLast? = some a → t.row.lastContributor = some a
  trailing : ∀ a k, List.replicate k a <:+ sinceResume t.stream → k ≤ t.row.consecutiveTurns
  inARow : ∀ a k, List.replicate k a <:+: sinceResume t.stream → k ≤ t.row.limits.maxConsecutive

/-! ## What a read is worth later -/

/-- A row that was read at some time, against the tables now. -/
structure ReadRow (t : Tables) (r : Row) : Prop where
  le : r.turnNo ≤ t.row.turnNo
  limits : r.limits ∈ limitsOf t.stream
  same : r.turnNo = t.row.turnNo →
    r.turnIndex = t.row.turnIndex ∧ r.lastContributor = t.row.lastContributor ∧
      (sinceResume t.stream = [] ∨
        r.consecutiveTurns = t.row.consecutiveTurns ∧ r.limits = t.row.limits)

/-- Participants that were read after a row, against the tables now. -/
def ReadParticipants (t : Tables) (r : Row) (ps : List Participant) : Prop :=
  r.turnNo = t.row.turnNo → ∀ p ∈ ps, p ∈ t.participants

theorem readRow_self {t : Tables} (h : Accounted t) : ReadRow t t.row :=
  ⟨le_rfl, h.limits, fun _ ↦ ⟨rfl, rfl, .inr ⟨rfl, rfl⟩⟩⟩

/-- What a transaction has read, against the tables now. -/
structure Transaction.Fits (t : Tables) (x : Transaction) : Prop where
  row : ∀ r, x.row = some r → ReadRow t r
  participants : ∀ r ps, x.row = some r → x.participants = some ps → ReadParticipants t r ps
  judged : ∀ r ps n, x.row = some r → x.participants = some ps → x.streamLength = some n →
    ∃ spent now, judge ⟨r, ps⟩ spent now x.command = .ok ()

/-! ## Judgements -/

variable {p : Participant} {l : List Account} {a : Account} {k : ℕ} {ps : List Participant}

theorem judgeContribution_ok {s : State} {actor : Account} {contributionType : Option String}
    {body : String} {spent : ℕ} {now : Time}
    (h : judgeContribution s actor contributionType body spent now = .ok p) :
    s.participant actor = some p ∧
      check s.row.limits (turnState s p actor spent now) (p.role = .agent) = none := by
  unfold judgeContribution at h
  split_ifs at h
  split at h
  · cases h
  rename_i q hq
  dsimp only at h
  split_ifs at h
  split at h
  · cases h
  rename_i hcheck
  have hp : q = p := by
    split at h
    · exact Except.ok.inj h
    · split_ifs at h
      exact Except.ok.inj h
  subst hp
  exact ⟨hq, hcheck⟩

theorem map_unit_ok {α : Type} {e : Except String α} (h : e.map (fun _ ↦ ()) = .ok ()) :
    ∃ a, e = .ok a := by
  cases e with
  | error => cases h
  | ok a => exact ⟨a, rfl⟩

/-! ## Lists of contributors -/

theorem replicate_suffix_concat {b : Account} (h : List.replicate k a <:+ l ++ [b]) :
    k = 0 ∨ ∃ k', k = k' + 1 ∧ a = b ∧ List.replicate k' a <:+ l := by
  cases k with
  | zero => exact .inl rfl
  | succ k =>
    rw [replicate_succ', suffix_concat_iff] at h
    rcases h with hnil | ⟨l', heq, hl'⟩
    · exact absurd hnil (by simp)
    · obtain ⟨rfl, hab⟩ := append_inj' heq rfl
      exact .inr ⟨k, rfl, by simpa using hab, hl'⟩

theorem getLast?_of_replicate_suffix (h : List.replicate (k + 1) a <:+ l) :
    l.getLast? = some a := by
  obtain ⟨l', rfl⟩ := h
  rw [replicate_succ', ← append_assoc, List.getLast?_concat]

theorem isAgent_of_mem (hseated : (ps.map Participant.account).Nodup) (hp : p ∈ ps) :
    isAgent ps p.account = decide (p.role = .agent) := by
  by_cases hrole : p.role = .agent
  · rw [decide_eq_true hrole]
    exact List.any_eq_true.2 ⟨p, hp, by simpa using hrole⟩
  · rw [decide_eq_false hrole]
    refine List.any_eq_false.2 fun q hq hboth ↦ hrole ?_
    simp only [decide_eq_true_eq] at hboth
    rw [← inj_on_of_nodup_map hseated hq hp hboth.1]
    exact hboth.2

theorem accounts_countTurn (ps : List Participant) (a : Account) :
    (countTurn ps a).map Participant.account = ps.map Participant.account := by
  rw [countTurn, List.map_map]
  refine map_congr_left fun p _ ↦ ?_
  simp only [Function.comp_apply]
  split_ifs <;> rfl

theorem of_mem_countTurn {q : Participant} (h : q ∈ countTurn ps a) :
    ∃ p ∈ ps, q.account = p.account ∧ q.role = p.role ∧
      q.turnsTaken = p.turnsTaken + if a = p.account then 1 else 0 := by
  obtain ⟨p, hp, rfl⟩ := List.mem_map.1 h
  refine ⟨p, hp, ?_⟩
  by_cases hactor : p.account = a
  · rw [if_pos hactor, if_pos hactor.symm]
    exact ⟨rfl, rfl, rfl⟩
  · rw [if_neg hactor, if_neg (Ne.symm hactor)]
    exact ⟨rfl, rfl, rfl⟩

theorem isAgent_countTurn (ps : List Participant) (a b : Account) :
    isAgent (countTurn ps a) b = isAgent ps b := by
  rw [isAgent, isAgent, countTurn, List.any_map]
  refine congrArg (List.any ps) (funext fun p ↦ ?_)
  simp only [Function.comp_apply]
  split_ifs <;> rfl

/-! ## A contribution -/

section

variable {t : Tables} {s : State} {actor : Account}

theorem turnNo_eq_of_free (h : Accounted t) (hr : ReadRow t s.row)
    (hfree : ∀ x ∈ t.turns, x.seq ≠ s.row.turnNo + 1) : s.row.turnNo = t.row.turnNo := by
  refine hr.le.antisymm (not_lt.1 fun hlt ↦ ?_)
  have hmem : s.row.turnNo + 1 ∈ t.turns.map Turn.seq := by
    rw [h.numbered, mem_range'_1]
    omega
  obtain ⟨x, hx, heq⟩ := List.mem_map.1 hmem
  exact hfree x hx heq

theorem trailing_advance (h : Accounted t) (hr : ReadRow t s.row)
    (heq : s.row.turnNo = t.row.turnNo)
    (hsuffix : List.replicate k a <:+ sinceResume t.stream ++ [actor]) :
    k ≤ 1 ∨ s.row.limits = t.row.limits ∧ s.row.lastContributor = some actor ∧
      k ≤ s.row.consecutiveTurns + 1 := by
  obtain ⟨-, hlast, hsince⟩ := hr.same heq
  rcases replicate_suffix_concat hsuffix with hzero | ⟨k', rfl, rfl, hk'⟩
  · exact .inl (by omega)
  cases k' with
  | zero => exact .inl le_rfl
  | succ =>
    right
    have hlast' := h.last a (getLast?_of_replicate_suffix hk')
    rcases hsince with hnil | ⟨hconsecutive, hlimits⟩
    · rw [hnil, suffix_nil] at hk'
      exact absurd hk' (by simp)
    · refine ⟨hlimits, hlast.trans hlast', ?_⟩
      have := h.trailing a _ hk'
      omega

theorem turnsOf_concat (t' : Tables) (x : Turn) (hturns : t'.turns = t.turns ++ [x])
    (a : Account) : t'.turnsOf a = t.turnsOf a + if x.account = a then 1 else 0 := by
  rw [Tables.turnsOf, Tables.turnsOf, hturns, map_append, List.count_append, map_cons,
    map_nil, count_singleton]
  by_cases h : x.account = a <;> simp [h]

theorem Accounted.contribute {t' : Tables} {contributionType : Option String} {body : String}
    {spent : ℕ} {now : Time} (h : Accounted t) (hr : ReadRow t s.row)
    (hps : ReadParticipants t s.row s.participants)
    (hjudge : judgeContribution s actor contributionType body spent now = .ok p)
    (hwrite : t.write s (.contribute actor contributionType body) = some t') :
    Accounted t' ∧ t'.row.turnNo = t.row.turnNo + 1 := by
  obtain ⟨hfind, hcheck⟩ := judgeContribution_ok hjudge
  obtain ⟨hconsecutive, hperAgent, htotal⟩ := check_none hcheck
  simp only [Tables.write, hfind, map_some, some.injEq] at hwrite
  split_ifs at hwrite with hfree
  have hfree' : ∀ x ∈ t.turns, x.seq ≠ s.row.turnNo + 1 := fun x hx heq ↦
    hfree (List.any_eq_true.2 ⟨x, hx, by simpa using heq⟩)
  have heq := turnNo_eq_of_free h hr hfree'
  obtain ⟨hindex, hlast, hsince⟩ := hr.same heq
  have hmem : p ∈ t.participants := hps heq p (mem_of_find?_eq_some hfind)
  have haccount : p.account = actor := by simpa using List.find?_some hfind
  subst haccount
  obtain rfl := some.inj hwrite
  refine ⟨⟨?_, ?_, ?_, ?_, ?_, ?_, ?_, ?_, ?_, ?_, ?_, ?_⟩, rfl⟩
  · -- the number that was read is the next one
    change (t.turns ++ [_]).map _ = List.range' 1 (t.row.turnNo + 1)
    rw [map_append, h.numbered, range'_1_concat, heq]
    simp [Nat.add_comm]
  · change contributors (t.stream ++ [_]) = (t.turns ++ [_]).map _
    rw [contributors_idea, h.contributed, map_append]
    rfl
  · change ((countTurn t.participants p.account).map _).Nodup
    rw [accounts_countTurn]
    exact h.seated
  · intro x hx
    change x.account ∈ (countTurn t.participants p.account).map _
    rw [accounts_countTurn]
    rcases mem_append.1 hx with hx | hx
    · exact h.known x hx
    · rw [mem_singleton.1 hx]
      exact List.mem_map_of_mem hmem
  · intro q hq
    obtain ⟨q₀, hq₀, hq, -, htaken⟩ := of_mem_countTurn hq
    rw [turnsOf_concat _ _ rfl, hq, htaken, h.taken q₀ hq₀]
  · -- the actor is seated as an Agent exactly when it was read as one
    change (if decide (p.role = .agent) = true then s.row.turnIndex + 1 else s.row.turnIndex) =
      ((t.turns ++ [_]).map Turn.account).countP (isAgent (countTurn t.participants p.account))
    have hagents : isAgent (countTurn t.participants p.account) = isAgent t.participants :=
      funext fun b ↦ isAgent_countTurn _ _ b
    rw [hagents, map_append, countP_append, ← h.index, hindex]
    simp only [map_cons, map_nil, countP_singleton, isAgent_of_mem h.seated hmem]
    split_ifs <;> rfl
  · change t.row.limits ∈ limitsOf (t.stream ++ [_])
    rw [limitsOf_idea]
    exact h.limits
  · change ∃ l ∈ limitsOf (t.stream ++ [_]), t.row.turnNo + 1 ≤ l.totalTurns
    rw [limitsOf_idea, ← heq]
    exact ⟨s.row.limits, hr.limits, htotal⟩
  · intro q hq hrole
    obtain ⟨q₀, hq₀, hq, hrole₀, -⟩ := of_mem_countTurn hq
    change ∃ l ∈ limitsOf (t.stream ++ [_]), _
    rw [limitsOf_idea, turnsOf_concat _ _ rfl, hq]
    by_cases hactor : p.account = q₀.account
    · obtain rfl := inj_on_of_nodup_map h.seated hmem hq₀ hactor
      refine ⟨s.row.limits, hr.limits, ?_⟩
      have := hperAgent (decide_eq_true (hrole₀.symm.trans hrole))
      rw [turnState, h.taken p hmem] at this
      rwa [if_pos rfl]
    · rw [if_neg hactor]
      exact h.perAgent q₀ hq₀ (hrole₀.symm.trans hrole)
  · intro a ha
    change some p.account = some a
    change (sinceResume (t.stream ++ [_])).getLast? = some a at ha
    rwa [sinceResume_idea, List.getLast?_concat] at ha
  · intro a k hk
    change List.replicate k a <:+ sinceResume (t.stream ++ [_]) at hk
    rw [sinceResume_idea] at hk
    change k ≤ if s.row.lastContributor = some p.account then s.row.consecutiveTurns + 1 else 1
    rcases trailing_advance h hr heq hk with hone | ⟨-, hcontributor, hle⟩
    · split_ifs <;> omega
    · rwa [if_pos hcontributor]
  · intro a k hk
    change List.replicate k a <:+: sinceResume (t.stream ++ [_]) at hk
    rw [sinceResume_idea, infix_concat_iff] at hk
    change k ≤ t.row.limits.maxConsecutive
    rcases hk with hsuffix | hinfix
    · rcases trailing_advance h hr heq hsuffix with hone | ⟨hlimits, hcontributor, hle⟩
      · exact hone.trans t.row.limits.maxConsecutive_pos
      · rw [← hlimits]
        have hcount : (turnState s p p.account spent now).consecutive =
            s.row.consecutiveTurns + 1 := by
          rw [TurnState.consecutive]
          exact if_pos (decide_eq_true hcontributor)
        rw [hcount] at hconsecutive
        exact hle.trans hconsecutive
    · exact h.inARow a k hinfix

end

/-! ## The other writes -/

section

variable {t t' : Tables}

/-- What an Event that is neither a turn nor a resume leaves as it was. -/
structure Unchanged (t t' : Tables) : Prop where
  turns : t'.turns = t.turns
  participants : t'.participants = t.participants
  turnNo : t'.row.turnNo = t.row.turnNo
  turnIndex : t'.row.turnIndex = t.row.turnIndex
  lastContributor : t'.row.lastContributor = t.row.lastContributor
  consecutiveTurns : t'.row.consecutiveTurns = t.row.consecutiveTurns
  limits : t'.row.limits = t.row.limits
  limitsOf : limitsOf t'.stream = limitsOf t.stream
  contributors : contributors t'.stream = contributors t.stream
  sinceResume : sinceResume t'.stream = sinceResume t.stream

theorem unchanged_silent (t : Tables) (status : Status) (reason : Option String) {e : Event}
    (h : e.Silent) :
    Unchanged t { t with row := t.row.setStatus status reason, stream := t.stream ++ [e] } :=
  ⟨rfl, rfl, rfl, rfl, rfl, rfl, rfl, limitsOf_silent h, contributors_silent h,
    sinceResume_silent h⟩

theorem Accounted.unchanged (h : Accounted t) (hun : Unchanged t t') : Accounted t' := by
  have hturnsOf : ∀ a, t'.turnsOf a = t.turnsOf a := fun a ↦ by
    rw [Tables.turnsOf, Tables.turnsOf, hun.turns]
  constructor
  · rw [hun.turns, hun.turnNo]
    exact h.numbered
  · rw [hun.contributors, hun.turns]
    exact h.contributed
  · rw [hun.participants]
    exact h.seated
  · rw [hun.turns, hun.participants]
    exact h.known
  · intro p hp
    rw [hturnsOf]
    exact h.taken p (hun.participants ▸ hp)
  · rw [hun.turnIndex, hun.turns, hun.participants]
    exact h.index
  · rw [hun.limits, hun.limitsOf]
    exact h.limits
  · rw [hun.turnNo, hun.limitsOf]
    exact h.total
  · intro p hp hrole
    rw [hturnsOf, hun.limitsOf]
    exact h.perAgent p (hun.participants ▸ hp) hrole
  · rw [hun.sinceResume, hun.lastContributor]
    exact h.last
  · rw [hun.sinceResume, hun.consecutiveTurns]
    exact h.trailing
  · rw [hun.sinceResume, hun.limits]
    exact h.inARow

theorem Accounted.resume (h : Accounted t) (limits : Limits) : Accounted { t with
      row := { t.row with limits := limits, consecutiveTurns := 0 }.setStatus .opened none
      stream := t.stream ++ [.resumed limits] } := by
  have hgrows : ∀ l ∈ limitsOf t.stream, l ∈ limitsOf (t.stream ++ [.resumed limits]) :=
    fun l hl ↦ by
      rw [limitsOf_resumed]
      exact mem_append_left _ hl
  refine ⟨h.numbered, ?_, h.seated, h.known, h.taken, h.index, ?_, ?_, ?_, ?_, ?_, ?_⟩
  · change contributors (t.stream ++ [_]) = _
    rw [contributors_resumed]
    exact h.contributed
  · change limits ∈ limitsOf (t.stream ++ [_])
    rw [limitsOf_resumed]
    exact mem_append_right _ mem_cons_self
  · obtain ⟨l, hl, hle⟩ := h.total
    exact ⟨l, hgrows l hl, hle⟩
  · intro p hp hrole
    obtain ⟨l, hl, hle⟩ := h.perAgent p hp hrole
    exact ⟨l, hgrows l hl, hle⟩
  · intro a ha
    change (sinceResume (t.stream ++ [_])).getLast? = some a at ha
    rw [sinceResume_resumed] at ha
    cases ha
  · intro a k hk
    change List.replicate k a <:+ sinceResume (t.stream ++ [_]) at hk
    rw [sinceResume_resumed, suffix_nil, replicate_eq_nil_iff] at hk
    exact hk.le
  · intro a k hk
    change List.replicate k a <:+: sinceResume (t.stream ++ [_]) at hk
    rw [sinceResume_resumed, infix_nil, replicate_eq_nil_iff] at hk
    exact hk.le.trans (Nat.zero_le _)

theorem Accounted.join (h : Accounted t) (account : Account) (role : Role)
    (agentId : Option String) (seat : ℕ) : Accounted { t with
      participants := addParticipant t.participants account role agentId seat } := by
  unfold addParticipant
  split_ifs with htaken
  · exact h
  have hnew : account ∉ t.participants.map Participant.account := by
    intro hmem
    obtain ⟨p, hp, heq⟩ := List.mem_map.1 hmem
    exact htaken (List.any_eq_true.2 ⟨p, hp, by simp [heq]⟩)
  have hnoTurn : t.turnsOf account = 0 := by
    rw [Tables.turnsOf, List.count_eq_zero]
    intro hmem
    obtain ⟨x, hx, heq⟩ := List.mem_map.1 hmem
    exact hnew (heq ▸ h.known x hx)
  refine ⟨h.numbered, h.contributed, ?_, ?_, ?_, ?_, h.limits, h.total, ?_, h.last, h.trailing,
    h.inARow⟩
  · rw [map_append, nodup_append_comm]
    exact nodup_cons.2 ⟨hnew, h.seated⟩
  · intro x hx
    rw [map_append]
    exact mem_append_left _ (h.known x hx)
  · intro p hp
    rcases mem_append.1 hp with hp | hp
    · exact h.taken p hp
    · rw [mem_singleton.1 hp]
      exact hnoTurn.symm
  · change t.row.turnIndex = (t.turns.map Turn.account).countP (isAgent (t.participants ++ [_]))
    rw [h.index]
    refine countP_congr fun a ha ↦ ?_
    obtain ⟨x, hx, rfl⟩ := List.mem_map.1 ha
    have hne : account ≠ x.account := fun heq ↦ hnew (heq ▸ h.known x hx)
    simp [isAgent, hne]
  · intro p hp hrole
    rcases mem_append.1 hp with hp | hp
    · exact h.perAgent p hp hrole
    · rw [mem_singleton.1 hp]
      exact ⟨_, h.limits, hnoTurn.le.trans (Nat.zero_le _)⟩

/-! ## What passes while a transaction is reading -/

/-- How the tables get from one state to a later one, as far as a reader is concerned. -/
structure Passes (t t' : Tables) : Prop where
  limits : ∀ l ∈ limitsOf t.stream, l ∈ limitsOf t'.stream
  turnNo : t.row.turnNo < t'.row.turnNo ∨
    t'.row.turnNo = t.row.turnNo ∧ t'.row.turnIndex = t.row.turnIndex ∧
      t'.row.lastContributor = t.row.lastContributor ∧ (∀ p ∈ t.participants, p ∈ t'.participants) ∧
      (sinceResume t'.stream = [] ∨ sinceResume t'.stream = sinceResume t.stream ∧
        t'.row.consecutiveTurns = t.row.consecutiveTurns ∧ t'.row.limits = t.row.limits)

theorem Unchanged.passes (h : Unchanged t t') : Passes t t' :=
  ⟨fun _ hl ↦ h.limitsOf ▸ hl, .inr ⟨h.turnNo, h.turnIndex, h.lastContributor,
    fun _ hp ↦ h.participants ▸ hp, .inr ⟨h.sinceResume, h.consecutiveTurns, h.limits⟩⟩⟩

variable {r : Row}

theorem ReadRow.later (h : ReadRow t r) (hpasses : Passes t t') : ReadRow t' r := by
  refine ⟨?_, hpasses.limits _ h.limits, fun heq ↦ ?_⟩
  · rcases hpasses.turnNo with hlt | ⟨hsame, -⟩
    · exact h.le.trans hlt.le
    · exact hsame ▸ h.le
  · rcases hpasses.turnNo with hlt | ⟨hsame, hindex, hlast, -, hsince⟩
    · exact absurd (heq ▸ h.le) (Nat.not_le.2 hlt)
    obtain ⟨hindex₀, hlast₀, hsince₀⟩ := h.same (heq.trans hsame)
    refine ⟨hindex₀.trans hindex.symm, hlast₀.trans hlast.symm, ?_⟩
    rcases hsince with hnil | ⟨hstream, hconsecutive, hlimits⟩
    · exact .inl hnil
    · rw [hstream, hconsecutive, hlimits]
      exact hsince₀

theorem ReadParticipants.later (hr : ReadRow t r) (h : ReadParticipants t r ps)
    (hpasses : Passes t t') : ReadParticipants t' r ps := by
  intro heq p hp
  rcases hpasses.turnNo with hlt | ⟨hsame, -, -, hparticipants, -⟩
  · exact absurd (heq ▸ hr.le) (Nat.not_le.2 hlt)
  · exact hparticipants p (h (heq.trans hsame) p hp)

theorem Transaction.Fits.later {x : Transaction} (h : x.Fits t) (hpasses : Passes t t') :
    x.Fits t' :=
  ⟨fun r hr ↦ (h.row r hr).later hpasses,
    fun r ps hr hps ↦ ReadParticipants.later (h.row r hr) (h.participants r ps hr hps) hpasses,
    h.judged⟩

/-- A write that goes through keeps the accounts, whatever its transaction has read. -/
theorem Accounted.write {s : State} {c : Command} {spent : ℕ} {now : Time} (h : Accounted t)
    (hr : ReadRow t s.row) (hps : ReadParticipants t s.row s.participants)
    (hjudge : judge s spent now c = .ok ()) (hwrite : t.write s c = some t') :
    Accounted t' ∧ Passes t t' := by
  cases c with
  | contribute =>
    obtain ⟨p, hp⟩ := map_unit_ok hjudge
    obtain ⟨h', hturnNo⟩ := h.contribute hr hps hp hwrite
    refine ⟨h', ⟨fun l hl ↦ ?_, .inl (by omega)⟩⟩
    simp only [Tables.write] at hwrite
    split_ifs at hwrite
    obtain rfl := some.inj hwrite
    change l ∈ limitsOf (t.stream ++ [_])
    rwa [limitsOf_idea]
  | resume actor limits =>
    simp only [Tables.write] at hwrite
    split at hwrite
    · cases hwrite
    rename_i limits' _
    obtain rfl := some.inj hwrite
    refine ⟨h.resume limits', ⟨fun l hl ↦ ?_, .inr ⟨rfl, rfl, rfl, fun p hp ↦ hp, .inl ?_⟩⟩⟩
    · change l ∈ limitsOf (t.stream ++ [_])
      rw [limitsOf_resumed]
      exact mem_append_left _ hl
    · exact sinceResume_resumed _
  | pause _ reasonCode =>
    obtain rfl := some.inj hwrite
    have hun := unchanged_silent t .paused (some reasonCode) (e := .paused reasonCode) trivial
    exact ⟨h.unchanged hun, hun.passes⟩
  | pauseOnBreach breach =>
    obtain rfl := some.inj hwrite
    have hun := unchanged_silent t .paused (some breach.code) (e := .paused breach.code) trivial
    exact ⟨h.unchanged hun, hun.passes⟩
  | close =>
    obtain rfl := some.inj hwrite
    have hun := unchanged_silent t .closed none (e := .closed s.row.turnNo) trivial
    exact ⟨h.unchanged hun, hun.passes⟩
  | summarize =>
    obtain rfl := some.inj hwrite
    have hun : Unchanged t { t with stream := t.stream ++ [.summaryRecorded] } :=
      ⟨rfl, rfl, rfl, rfl, rfl, rfl, rfl, limitsOf_silent trivial, contributors_silent trivial,
        sinceResume_silent trivial⟩
    exact ⟨h.unchanged hun, hun.passes⟩

theorem passes_join (t : Tables) (account : Account) (role : Role) (agentId : Option String)
    (seat : ℕ) : Passes t { t with
      participants := addParticipant t.participants account role agentId seat } := by
  refine ⟨fun _ hl ↦ hl, .inr ⟨rfl, rfl, rfl, fun p hp ↦ ?_, .inr ⟨rfl, rfl, rfl⟩⟩⟩
  unfold addParticipant
  split_ifs
  · exact hp
  · exact mem_append_left _ hp

end

/-! ## Runs -/

/-- The tables are accounted for, and every transaction has read what fits. -/
structure World.Sound (w : World) : Prop where
  tables : Accounted w.tables
  fits : ∀ i x, w.transactions i = some x → x.Fits w.tables

section

variable {w w' : World}

theorem World.Sound.set (h : w.Sound) (i : ℕ) {x : Option Transaction}
    (hx : ∀ y, x = some y → y.Fits w.tables) : (w.set i x).Sound := by
  refine ⟨h.tables, fun j y hy ↦ ?_⟩
  change (if j = i then x else w.transactions j) = some y at hy
  split_ifs at hy with hij
  · exact hx y hy
  · exact h.fits j y hy

theorem World.Sound.change (h : w.Sound) {t : Tables} (ht : Accounted t)
    (hpasses : Passes w.tables t) : World.Sound { w with tables := t } :=
  ⟨ht, fun i x hx ↦ (h.fits i x hx).later hpasses⟩

theorem World.Sound.step (h : w.Sound) {l : Label} (hstep : w.step l = some w') : w'.Sound := by
  cases l with
  | begin i =>
    simp only [World.step] at hstep
    split at hstep
    · obtain rfl := some.inj hstep
      refine h.set i ?_
      rintro _ ⟨⟩
      exact ⟨nofun, nofun, nofun⟩
    · cases hstep
  | loadRow i =>
    simp only [World.step] at hstep
    split at hstep
    · obtain rfl := some.inj hstep
      refine h.set i ?_
      rintro _ ⟨⟩
      refine ⟨?_, nofun, nofun⟩
      rintro _ ⟨⟩
      exact readRow_self h.tables
    · cases hstep
  | loadParticipants i =>
    simp only [World.step] at hstep
    split at hstep
    · rename_i command row hx
      obtain rfl := some.inj hstep
      refine h.set i ?_
      rintro _ ⟨⟩
      refine ⟨(h.fits i _ hx).row, ?_, nofun⟩
      rintro _ _ ⟨⟩ ⟨⟩ _ p hp
      exact (perm_insertionSort _ _).mem_iff.1 hp
    · cases hstep
  | readStream i spent now =>
    simp only [World.step] at hstep
    split at hstep
    · rename_i command row participants hx
      split at hstep
      · cases hstep
      rename_i hjudge
      obtain rfl := some.inj hstep
      refine h.set i ?_
      rintro _ ⟨⟩
      refine ⟨(h.fits i _ hx).row, (h.fits i _ hx).participants, ?_⟩
      rintro _ _ _ ⟨⟩ ⟨⟩ ⟨⟩
      exact ⟨spent, now, hjudge⟩
    · cases hstep
  | commit i =>
    simp only [World.step] at hstep
    split at hstep
    · rename_i command row participants streamLength hx
      split_ifs at hstep
      obtain ⟨t, hwrite, rfl⟩ := map_eq_some_iff.1 hstep
      have hfits := h.fits i _ hx
      obtain ⟨spent, now, hjudge⟩ := hfits.judged row participants streamLength rfl rfl rfl
      obtain ⟨ht, hpasses⟩ := h.tables.write (s := ⟨row, participants⟩) (hfits.row row rfl)
        (hfits.participants row participants rfl rfl) hjudge hwrite
      have hset : (w.set i none).Sound := h.set i fun _ hx ↦ (nomatch hx)
      exact hset.change ht hpasses
    · cases hstep
  | stop i =>
    obtain rfl := some.inj hstep
    exact h.set i fun _ hx ↦ (nomatch hx)
  | join account role agentId seat =>
    obtain rfl := some.inj hstep
    exact h.change (h.tables.join account role agentId seat) (passes_join _ _ _ _ _)

theorem accounted_start (facilitator : Account) (limits : Limits)
    (participants : List (Account × Role × Option String)) (now : Time) :
    Accounted (start facilitator limits participants now) := by
  have hempty : Accounted { start facilitator limits participants now with participants := [] } := by
    refine ⟨rfl, rfl, nodup_nil, nofun, nofun, rfl, mem_cons_self,
      ⟨limits, mem_cons_self, Nat.zero_le _⟩, nofun, nofun, ?_, ?_⟩
    · intro a k hk
      change List.replicate k a <:+ [] at hk
      rw [suffix_nil, replicate_eq_nil_iff] at hk
      exact hk.le
    · intro a k hk
      change List.replicate k a <:+: [] at hk
      rw [infix_nil, replicate_eq_nil_iff] at hk
      exact hk.le.trans (Nat.zero_le _)
  -- the participants are seated one after the other, each as in a join
  have hseat : ∀ (ps : List (Account × Role × Option String)) (qs : List Participant),
      Accounted { start facilitator limits participants now with participants := qs } →
      Accounted { start facilitator limits participants now with
        participants := ps.foldl (fun ps p ↦ addParticipant ps p.1 p.2.1 p.2.2
          ((ps.map fun q ↦ q.seat + 1).foldl max 0)) qs } := by
    intro ps
    induction ps with
    | nil => exact fun _ h ↦ h
    | cons p _ ih => exact fun qs h ↦ ih _ (h.join p.1 p.2.1 p.2.2 _)
  exact hseat participants [] hempty

theorem Reachable.sound (h : Reachable w) : w.Sound := by
  induction h with
  | start facilitator limits participants now =>
    exact ⟨accounted_start facilitator limits participants now, fun _ _ hx ↦ (nomatch hx)⟩
  | step l _ hstep ih => exact ih.step hstep

/-- In every state that any interleaving of the transactions of a session reaches: the turns are
numbered from one to `turn_no`, `turn_index` counts the turns of Agents, the numbers of turns are
within limits that the session has had, and since the last resume nobody has more than
`max_consecutive` turns in a row. -/
theorem turn_accounting (h : Reachable w) :
    w.tables.turns.map Turn.seq = List.range' 1 w.tables.row.turnNo ∧ w.tables.row.turnIndex =
      (w.tables.turns.map Turn.account).countP (isAgent w.tables.participants) ∧
    (∃ l ∈ limitsOf w.tables.stream, w.tables.row.turnNo ≤ l.totalTurns) ∧
    (∀ p ∈ w.tables.participants, p.role = .agent →
      ∃ l ∈ limitsOf w.tables.stream, w.tables.turnsOf p.account ≤ l.turnsPerAgent) ∧
    contributors w.tables.stream = w.tables.turns.map Turn.account ∧
    ∀ a k, List.replicate k a <:+: sinceResume w.tables.stream →
      k ≤ w.tables.row.limits.maxConsecutive :=
  ⟨h.sound.tables.numbered, h.sound.tables.index, h.sound.tables.total, h.sound.tables.perAgent,
    h.sound.tables.contributed, h.sound.tables.inARow⟩

end

/-! ## One Agent and a facilitator who resumes -/

def World.runLabels (w : World) : List Label → Option World
  | [] => some w
  | l :: ls => (w.step l).bind fun w ↦ w.runLabels ls

theorem Reachable.runLabels {ls : List Label} :
    ∀ {w w' : World}, Reachable w → w.runLabels ls = some w' → Reachable w' := by
  induction ls with
  | nil =>
    intro w w' h hrun
    exact some.inj hrun ▸ h
  | cons l _ ih =>
    intro w w' h hrun
    obtain ⟨w₁, hstep, hrun⟩ := bind_eq_some_iff.1 hrun
    exact ih (h.step l hstep) hrun

namespace Sample

def limits : Limits :=
  { turnsPerAgent := 5, maxConsecutive := 1, totalTurns := 40, budgetCostUnits := 0,
    timeLimitMinutes := 0, turnsPerAgent_pos := by decide, maxConsecutive_pos := by decide,
    totalTurns_pos := by decide }

def opened : World :=
  ⟨start "facilitator" limits [("writer", .agent, some "agent-1")] 0, fun _ ↦ none⟩

def alone (command : Command) : List Label :=
  [.begin 0 command, .loadRow 0, .loadParticipants 0, .readStream 0 0 0, .commit 0]

/-- Two turns with a pause between them, and then a resume with a lower number of turns. -/
def labels : List Label :=
  alone (.contribute "writer" (some "IDEA") "one") ++
    alone (.pauseOnBreach .maxConsecutiveExceeded) ++ alone (.resume "facilitator" []) ++
    alone (.contribute "writer" (some "IDEA") "two") ++
    alone (.pauseOnBreach .maxConsecutiveExceeded) ++
    alone (.resume "facilitator" [("total_turns", some 1)])

theorem resumed_twice : ∃ w, Reachable w ∧ w.tables.row.status = .opened ∧
    w.tables.turns.map Turn.account = ["writer", "writer"] ∧
    w.tables.row.limits.maxConsecutive = 1 ∧ w.tables.row.turnNo = 2 ∧
    w.tables.row.limits.totalTurns = 1 := by
  have hrun : (opened.runLabels labels).any (fun w ↦
      w.tables.row.status = .opened ∧ w.tables.turns.map Turn.account = ["writer", "writer"] ∧
      w.tables.row.limits.maxConsecutive = 1 ∧ w.tables.row.turnNo = 2 ∧
      w.tables.row.limits.totalTurns = 1) = true := by decide +kernel
  obtain ⟨w, hw, h⟩ := (Option.any_eq_true _ _).1 hrun
  exact ⟨w, .runLabels (.start _ _ _ _) hw, of_decide_eq_true h⟩

end Sample

/-- The turns of the session with the two resumes are numbered. -/
theorem turn_accounting_resumed : ∃ w, Reachable w ∧ w.tables.row.turnNo = 2 ∧
    w.tables.turns.map Turn.seq = List.range' 1 w.tables.row.turnNo := by
  obtain ⟨w, hw, -, -, -, hturnNo, -⟩ := Sample.resumed_twice
  exact ⟨w, hw, hturnNo, (turn_accounting hw).1⟩

/-- After the resumes, the only Agent has more turns in a row than allowed, and there are too many
turns. -/
theorem resume_exceeds_limits :
    ¬∀ w, Reachable w → w.tables.row.turnNo ≤ w.tables.row.limits.totalTurns ∧
      ∀ a k, List.replicate k a <:+: w.tables.turns.map Turn.account →
        k ≤ w.tables.row.limits.maxConsecutive := by
  intro h
  obtain ⟨w, hw, -, haccounts, hmax, hturnNo, htotal⟩ := Sample.resumed_twice
  obtain ⟨hle, hinARow⟩ := h w hw
  have htwo := hinARow "writer" 2 (by rw [haccounts]; exact infix_rfl)
  omega

end AgentColab.Brainstorm
