import AgentColab.Brainstorm.Accounting
import AgentColab.Brainstorm.Turns
import AgentColab.Domain.RoundRobin

/-!
# Whose turn it is

`next_agent` computes the Agent whose turn it is from the number of the Agents' turns, modulo the
number of Agents. A join changes the modulus, so the next turn can come to the Agent that just
spoke, or pass over one. A session is a round robin over a growing order (`rounds`) as long as every
join is steady, and the Agents that a contribution has read and those that are there agree on the
turn.
-/

namespace AgentColab.Brainstorm

open List Option

/-! ## The order of the Agents -/

/-- The Agents in the order of their seats, by their accounts. -/
def agentsOf (participants : List Participant) : List Account :=
  (participants.filter (·.role = .agent)).map Participant.account

/-- What of a participant never changes and decides about turns. -/
def Participant.place (p : Participant) : Account × Role := (p.account, p.role)

open Participant (place)

/-- The seat that `add_participant` reads. -/
def nextSeat (participants : List Participant) : ℕ :=
  (participants.map fun q ↦ q.seat + 1).foldl max 0

def Seated (participants : List Participant) : Prop :=
  participants.map Participant.seat = List.range participants.length

theorem agentsOf_eq (ps : List Participant) :
    agentsOf ps = ((ps.map place).filter (·.2 = .agent)).map Prod.fst := by
  rw [agentsOf, List.filter_map, List.map_map]
  rfl

variable {ps qs : List Participant} {w : World}

theorem agentsOf_initial (h : ps.map place <+: qs.map place) :
    agentsOf ps <+: agentsOf qs := by
  rw [agentsOf_eq, agentsOf_eq]
  exact (h.filter _).map _

theorem agentsOf_congr (h : ps.map place = qs.map place) :
    agentsOf ps = agentsOf qs := by
  rw [agentsOf_eq, agentsOf_eq, h]

theorem mem_agentsOf_iff {a : Account} : a ∈ agentsOf ps ↔ isAgent ps a := by
  simp only [agentsOf, List.mem_map, mem_filter, isAgent, List.any_eq_true, decide_eq_true_eq]
  exact exists_congr fun p ↦ by tauto

theorem places_countTurn (ps : List Participant) (a : Account) :
    (countTurn ps a).map place = ps.map place := by
  rw [countTurn, List.map_map]
  refine map_congr_left fun p _ ↦ ?_
  simp only [Function.comp_apply, place]
  split_ifs <;> rfl

theorem seats_countTurn (ps : List Participant) (a : Account) :
    (countTurn ps a).map Participant.seat = ps.map Participant.seat := by
  rw [countTurn, List.map_map]
  refine map_congr_left fun p _ ↦ ?_
  simp only [Function.comp_apply]
  split_ifs <;> rfl

/-! ## Seats -/

theorem foldl_max_range (n : ℕ) : ((List.range n).map (· + 1)).foldl max 0 = n := by
  induction n with
  | zero => rfl
  | succ n ih => simp [range_succ, foldl_append, ih]

theorem Seated.nextSeat (h : Seated ps) : Brainstorm.nextSeat ps = ps.length := by
  have hmap : ps.map (fun q ↦ q.seat + 1) = (ps.map Participant.seat).map (· + 1) := by
    rw [List.map_map]
    rfl
  rw [Brainstorm.nextSeat, hmap, h, foldl_max_range]

theorem Seated.insertionSort (h : Seated ps) :
    (ps.insertionSort fun a b ↦ a.seat ≤ b.seat) = ps := by
  have hsorted : (ps.map Participant.seat).Pairwise (· ≤ ·) := by
    rw [h]
    exact pairwise_le_range
  exact (pairwise_map.1 hsorted).insertionSort_eq

theorem Seated.countTurn (h : Seated ps) (a : Account) : Seated (countTurn ps a) := by
  rw [Seated, seats_countTurn, h, Brainstorm.countTurn, length_map]

/-- With a seat that was read at some time, nobody is inserted or the next seat is taken. -/
theorem Seated.addParticipant (h : Seated ps) {account : Account} {role : Role}
    {agentId : Option String} {seat : ℕ} (hseat : seat ≤ Brainstorm.nextSeat ps) :
    addParticipant ps account role agentId seat = ps ∨
      addParticipant ps account role agentId seat = ps ++ [⟨account, role, agentId, seat, 0⟩] ∧
        account ∉ ps.map Participant.account ∧
        Seated (addParticipant ps account role agentId seat) := by
  rw [Brainstorm.addParticipant]
  split_ifs with htaken
  · exact .inl rfl
  · refine .inr ⟨rfl, fun hmem ↦ ?_, ?_⟩
    · obtain ⟨p, hp, hp'⟩ := List.mem_map.1 hmem
      exact htaken (List.any_eq_true.2 ⟨p, hp, by simp [hp']⟩)
    · have hnext : seat = ps.length := by
        refine (h.nextSeat ▸ hseat).antisymm (Nat.le_of_not_lt fun hlt ↦ htaken ?_)
        have hmem : seat ∈ ps.map Participant.seat := by
          rw [h]
          exact mem_range.2 hlt
        obtain ⟨p, hp, hp'⟩ := List.mem_map.1 hmem
        exact List.any_eq_true.2 ⟨p, hp, by simp [hp']⟩
      rw [Seated, map_append, h, length_append, length_singleton, range_succ, hnext]
      rfl

/-! ## Rounds -/

/-- The session as a round robin: of the turns those of Agents. -/
def rounds (t : Tables) : RoundRobin Account :=
  ⟨agentsOf t.participants, t.row.turnIndex,
    (t.turns.map Turn.account).filter (isAgent t.participants)⟩

/-- What a run keeps: the order of the Agents and the turns only grow. -/
structure Later (t t' : Tables) : Prop where
  places : t.participants.map place <+: t'.participants.map place
  turns : t.turns <+: t'.turns

theorem Later.refl (t : Tables) : Later t t := ⟨prefix_rfl, prefix_rfl⟩

theorem Later.trans {t t' t'' : Tables} (h : Later t t') (h' : Later t' t'') : Later t t'' :=
  ⟨h.places.trans h'.places, h.turns.trans h'.turns⟩

/-- By the participants that it has read, an Agent that contributes has the turn that there is. -/
def Transaction.onTurn (t : Tables) (x : Transaction) : Bool :=
  match x.command, x.participants with
  | .contribute actor _ _, some participants =>
    actor ∈ agentsOf participants → t.row.turnIndex % (agentsOf participants).length =
        t.row.turnIndex % (agentsOf t.participants).length
  | _, _ => true

/-- The condition of a step. The seat of a join was the next one when it was read, and an Agent that
is seated leaves the turn where it is. When a contribution of an Agent is recorded, the number of
Agents that it has read gives the same turn as the number there is. -/
def steady (w : World) : Label → Bool
  | .join account role agentId seat =>
    seat ≤ nextSeat w.tables.participants ∧ (role = .agent →
        addParticipant w.tables.participants account role agentId seat ≠ w.tables.participants →
          RoundRobin.Steady (agentsOf w.tables.participants).length w.tables.row.turnIndex)
  | .commit i => (w.transactions i).all (·.onTurn w.tables)
  | _ => true

inductive SteadyRun (w : World) : World → Prop
  | refl : SteadyRun w w
  | step {w₁ w₂ : World} (l : Label) (h : SteadyRun w w₁) (hsteady : steady w₁ l)
      (hstep : w₁.step l = some w₂) : SteadyRun w w₂

/-- Besides the accounts, the seats, and that what a transaction has read of the participants is a
beginning of what there is. -/
structure Orderly (w : World) : Prop where
  sound : w.Sound
  seated : Seated w.tables.participants
  read : ∀ i x ps, w.transactions i = some x → x.participants = some ps →
    ps.map place <+: w.tables.participants.map place

theorem Orderly.state (h : Orderly w) : w.tables.state = ⟨w.tables.row, w.tables.participants⟩ := by
  rw [Tables.state, h.seated.insertionSort]

theorem nextAgent_eq (s : State) : s.nextAgent.map Participant.account =
      (agentsOf s.participants)[s.row.turnIndex % (agentsOf s.participants).length]? := by
  rw [State.nextAgent, agentsOf, length_map, List.getElem?_map]
  rfl

theorem judgeContribution_turn {s : State} {actor : Account} {contributionType : Option String}
    {body : String} {spent : ℕ} {now : Time} {p : Participant}
    (h : judgeContribution s actor contributionType body spent now = .ok p)
    (hrole : p.role = .agent) : s.nextAgent.map Participant.account = some actor := by
  have hmem : p ∈ s.agents :=
    mem_filter.2 ⟨mem_of_find?_eq_some (judgeContribution_ok h).1, by simpa using hrole⟩
  have hlt : s.row.turnIndex % s.agents.length < s.agents.length :=
    Nat.mod_lt _ (length_pos_of_mem hmem)
  obtain ⟨expected, hexpected⟩ : ∃ expected, s.nextAgent = some expected :=
    ⟨_, List.getElem?_eq_getElem hlt⟩
  have hfind := (judgeContribution_ok h).1
  simp only [judgeContribution, hfind, hexpected, hrole, decide_true, true_and] at h
  split_ifs at h with _ _ _ _ hactor
  · split at h <;> cases h
  · rw [hexpected, map_some, not_not.1 hactor]

/-! ## Steps -/

section

variable {t t' : Tables} {s : State}

theorem isAgent_eq (ps : List Participant) (a : Account) :
    isAgent ps a = (ps.map place).any fun q ↦ q.1 = a ∧ q.2 = .agent := by
  rw [isAgent, List.any_map]
  rfl

theorem isAgent_eq_of_later (h : Later t t')
    (hseated : (t'.participants.map Participant.account).Nodup) {a : Account}
    (ha : a ∈ t.participants.map Participant.account) :
    isAgent t'.participants a = isAgent t.participants a := by
  obtain ⟨joined, hjoined⟩ := h.places
  have haccounts : t'.participants.map Participant.account =
      t.participants.map Participant.account ++ joined.map Prod.fst := by
    have hmap := congrArg (List.map Prod.fst) hjoined
    rw [map_append, List.map_map, List.map_map] at hmap
    exact hmap.symm
  have hnot : a ∉ joined.map Prod.fst := by
    rw [haccounts] at hseated
    exact fun hmem ↦ disjoint_of_nodup_append hseated ha hmem
  have hnone : (joined.any fun q ↦ q.1 = a ∧ q.2 = .agent) = false :=
    List.any_eq_false.2 fun q hq hboth ↦ hnot (by
      obtain ⟨rfl, -⟩ := of_decide_eq_true hboth
      exact List.mem_map_of_mem hq)
  rw [isAgent_eq, ← hjoined, any_append, hnone, Bool.or_false, isAgent_eq]

theorem filter_agents_of_later (h : Later t t') (ht : Accounted t)
    (hseated : (t'.participants.map Participant.account).Nodup) :
    (t.turns.map Turn.account).filter (isAgent t'.participants) =
      (t.turns.map Turn.account).filter (isAgent t.participants) := by
  refine filter_congr fun a ha ↦ ?_
  obtain ⟨x, hx, rfl⟩ := List.mem_map.1 ha
  exact isAgent_eq_of_later h hseated (ht.known x hx)

theorem spoken_of_later (h : Later t t') (ht : Accounted t)
    (hseated : (t'.participants.map Participant.account).Nodup) :
    (rounds t').spoken = (rounds t).spoken ++
      ((t'.turns.drop t.turns.length).map Turn.account).filter (isAgent t'.participants) := by
  obtain ⟨new, hnew⟩ := h.turns
  rw [rounds, rounds, ← hnew, drop_left, map_append, filter_append,
    filter_agents_of_later h ht hseated]

variable {c : Command} {actor : Account} {type : Option String} {body : String} {spent : ℕ}
    {now : Time}

theorem write_rounds (hc : ∀ actor type body, c ≠ .contribute actor type body)
    (hwrite : t.write s c = some t') :
    t'.participants = t.participants ∧ t'.turns = t.turns ∧ t'.row.turnIndex = t.row.turnIndex := by
  cases c with
  | contribute actor type body => exact absurd rfl (hc actor type body)
  | resume =>
    simp only [Tables.write] at hwrite
    split at hwrite
    · cases hwrite
    · obtain rfl := some.inj hwrite
      exact ⟨rfl, rfl, rfl⟩
  | pause | pauseOnBreach | close | summarize =>
    obtain rfl := some.inj hwrite
    exact ⟨rfl, rfl, rfl⟩

theorem write_contribute (ht : Accounted t) (hr : ReadRow t s.row)
    (hwrite : t.write s (.contribute actor type body) = some t') :
    t'.participants = countTurn t.participants actor ∧
      (∃ x, t'.turns = t.turns ++ [x] ∧ x.account = actor) ∧ s.row.turnIndex = t.row.turnIndex ∧
      t'.row.turnIndex =
        if (s.participant actor).map (·.role) = some .agent then t.row.turnIndex + 1
        else t.row.turnIndex := by
  simp only [Tables.write] at hwrite
  split_ifs at hwrite with hfree
  have hfree' : ∀ x ∈ t.turns, x.seq ≠ s.row.turnNo + 1 := fun x hx heq ↦
    hfree (List.any_eq_true.2 ⟨x, hx, by simpa using heq⟩)
  have hindex := (hr.same (turnNo_eq_of_free ht hr hfree')).1
  obtain rfl := some.inj hwrite
  refine ⟨rfl, ⟨_, rfl, rfl⟩, hindex, ?_⟩
  simp only [Row.advance, decide_eq_true_eq, hindex]

theorem rounds_contribute {p : Participant} (ht : Accounted t) (hr : ReadRow t s.row)
    (hplaces : s.participants.map place <+: t.participants.map place)
    (hjudge : judgeContribution s actor type body spent now = .ok p) (hsame : actor ∈ agentsOf
    s.participants → t.row.turnIndex % (agentsOf s.participants).length = t.row.turnIndex %
    (agentsOf t.participants).length) (hwrite : t.write s (.contribute actor type body) = some t') :
    RoundRobin.Run (rounds t) (rounds t') := by
  obtain ⟨hparticipants, ⟨x, hturns, hx⟩, hindex, hindex'⟩ := write_contribute ht hr hwrite
  obtain ⟨hfind, -⟩ := judgeContribution_ok hjudge
  have hmem : p ∈ s.participants := mem_of_find?_eq_some hfind
  have haccount : p.account = actor := by simpa using List.find?_some hfind
  rw [hfind, map_some] at hindex'
  have horder : agentsOf t'.participants = agentsOf t.participants := by
    rw [hparticipants]
    exact agentsOf_congr (places_countTurn _ _)
  have hagents : isAgent t'.participants = isAgent t.participants := by
    rw [hparticipants]
    exact funext fun b ↦ isAgent_countTurn _ _ b
  have hspoken : (rounds t').spoken =
      (rounds t).spoken ++ [actor].filter (isAgent t.participants) := by
    rw [rounds, rounds, hagents, hturns, map_append, filter_append, map_singleton, hx]
  have hplace : p.place ∈ t.participants.map place := hplaces.subset (List.mem_map_of_mem hmem)
  obtain ⟨q, hq, hqp⟩ := List.mem_map.1 hplace
  have hq' : q.account = actor ∧ q.role = p.role := by
    rw [← haccount]
    exact ⟨congrArg Prod.fst hqp, congrArg Prod.snd hqp⟩
  have hisAgent : isAgent t.participants actor = decide (p.role = .agent) := by
    rw [← hq'.1, isAgent_of_mem ht.seated hq, hq'.2]
  by_cases hrole : p.role = .agent
  · -- by what was read it was its turn, and it still is
    have hread : actor ∈ agentsOf s.participants :=
      List.mem_map.2 ⟨p, mem_filter.2 ⟨hmem, by simpa using hrole⟩, haccount⟩
    have hturn := judgeContribution_turn hjudge hrole
    rw [nextAgent_eq, hindex, hsame hread] at hturn
    have hholder : (rounds t).holder = some actor :=
      RoundRobin.getElem?_of_initial (agentsOf_initial hplaces) hturn
    rw [filter_cons_of_pos (by rw [hisAgent, decide_eq_true hrole]), filter_nil]
      at hspoken
    rw [if_pos (by rw [hrole])] at hindex'
    have hnext : rounds t' =
        ⟨(rounds t).order, (rounds t).index + 1, (rounds t).spoken ++ [actor]⟩ := by
      rw [← hspoken, rounds, horder, hindex']
      rfl
    exact hnext ▸ .single (.speak hholder)
  · rw [filter_cons_of_neg (by rw [hisAgent, decide_eq_false hrole]; simp), filter_nil,
      append_nil] at hspoken
    rw [if_neg (by simpa using hrole)] at hindex'
    have hnext : rounds t' = rounds t := by
      have heta : rounds t' =
        ⟨agentsOf t'.participants, t'.row.turnIndex, (rounds t').spoken⟩ := rfl
      rw [heta, horder, hindex', hspoken]
      rfl
    rw [hnext]

theorem rounds_write (ht : Accounted t) (hseats : Seated t.participants) (hr : ReadRow t s.row)
    (hplaces : s.participants.map place <+: t.participants.map place)
    (hjudge : judge s spent now c = .ok ()) (hsame : ∀ actor type body, c = .contribute actor type
    body → actor ∈ agentsOf s.participants → t.row.turnIndex % (agentsOf s.participants).length =
    t.row.turnIndex % (agentsOf t.participants).length) (hwrite : t.write s c = some t') :
    RoundRobin.Run (rounds t) (rounds t') ∧ Seated t'.participants ∧ Later t t' := by
  by_cases hc : ∃ actor type body, c = .contribute actor type body
  · obtain ⟨actor, type, body, rfl⟩ := hc
    obtain ⟨p, hp⟩ := map_unit_ok hjudge
    obtain ⟨hparticipants, ⟨x, hturns, -⟩, -⟩ := write_contribute ht hr hwrite
    refine ⟨rounds_contribute ht hr hplaces hp (hsame actor type body rfl) hwrite, ?_, ?_, ?_⟩
    · rw [hparticipants]
      exact hseats.countTurn actor
    · rw [hparticipants, places_countTurn]
    · rw [hturns]
      exact prefix_append _ _
  · obtain ⟨hparticipants, hturns, hindex⟩ := write_rounds
      (fun actor type body heq ↦ hc ⟨actor, type, body, heq⟩) hwrite
    have hrounds : rounds t' = rounds t := by rw [rounds, rounds, hparticipants, hturns, hindex]
    refine ⟨hrounds ▸ .refl, hparticipants ▸ hseats, ?_, ?_⟩
    · rw [hparticipants]
    · rw [hturns]

theorem rounds_join (ht : Accounted t) (hseats : Seated t.participants) {account : Account}
    {role : Role} {agentId : Option String} {seat : ℕ} (hseat : seat ≤ nextSeat t.participants)
    (hsteady : role = .agent →
      addParticipant t.participants account role agentId seat ≠ t.participants →
        RoundRobin.Steady (agentsOf t.participants).length t.row.turnIndex)
    (ht' : t' = { t with
      participants := addParticipant t.participants account role agentId seat }) :
    RoundRobin.Run (rounds t) (rounds t') ∧ Seated t'.participants ∧ Later t t' := by
  obtain hsame | ⟨hadd, hnew, hseats'⟩ :
    addParticipant t.participants account role agentId seat = t.participants ∨ _ ∧ _ ∧ _ :=
      hseats.addParticipant hseat
  · rw [hsame] at ht'
    subst ht'
    exact ⟨.refl, hseats, .refl t⟩
  · have hjoined : t'.participants = t.participants ++ [⟨account, role, agentId, seat, 0⟩] := by
      rw [ht', hadd]
    have hlater : Later t t' := by
      refine ⟨?_, by rw [ht']⟩
      rw [hjoined, map_append]
      exact prefix_append _ _
    have haccounted : Accounted t' := ht' ▸ ht.join account role agentId seat
    have hspoken : (rounds t').spoken = (rounds t).spoken := by
      have hturns : t'.turns = t.turns := by rw [ht']
      rw [rounds, rounds]
      dsimp only
      rw [hturns, filter_agents_of_later hlater ht haccounted.seated]
    refine ⟨?_, by rw [ht']; exact hseats', hlater⟩
    cases role with
    | human =>
      have horder : agentsOf t'.participants = agentsOf t.participants := by
        rw [hjoined, agentsOf, filter_append, filter_cons_of_neg (by simp),
          filter_nil, append_nil, agentsOf]
      have hsame : rounds t' = rounds t := by
        have heta : rounds t' =
          ⟨agentsOf t'.participants, t'.row.turnIndex, (rounds t').spoken⟩ := rfl
        rw [heta, horder, hspoken, ht']
        rfl
      rw [hsame]
    | agent =>
      have horder : agentsOf t'.participants = agentsOf t.participants ++ [account] := by
        rw [hjoined, agentsOf, filter_append, filter_cons_of_pos (by simp),
          filter_nil, map_append, agentsOf, map_singleton]
      have hnext : rounds t' =
          ⟨(rounds t).order ++ [account], (rounds t).index, (rounds t).spoken⟩ := by
        have heta : rounds t' =
          ⟨agentsOf t'.participants, t'.row.turnIndex, (rounds t').spoken⟩ := rfl
        rw [heta, horder, hspoken, ht']
        rfl
      have hsteady' := hsteady rfl (by rw [hadd]; simp)
      have hnew' : account ∉ agentsOf t.participants := fun hmem ↦ hnew (by
        obtain ⟨p, hp, hp'⟩ := List.mem_map.1 hmem
        exact List.mem_map.2 ⟨p, (mem_filter.1 hp).1, hp'⟩)
      exact hnext ▸ .single (.join hnew' hsteady')

end

/-! ## Runs -/

section

variable {w w' : World}

theorem Orderly.set (h : Orderly w) {i : ℕ} {x : Option Transaction} (hsound : (w.set i x).Sound)
    (hx : ∀ y ps, x = some y → y.participants = some ps →
      ps.map place <+: w.tables.participants.map place) :
    Orderly (w.set i x) := by
  refine ⟨hsound, h.seated, fun j y ps hy hps ↦ ?_⟩
  change (if j = i then x else w.transactions j) = some y at hy
  split_ifs at hy with hij
  · exact hx y ps hy hps
  · exact h.read j y ps hy hps

theorem Orderly.step (h : Orderly w) {l : Label} (hsteady : steady w l)
    (hstep : w.step l = some w') :
    Orderly w' ∧ RoundRobin.Run (rounds w.tables) (rounds w'.tables) ∧
      Later w.tables w'.tables := by
  have hsound := h.sound.step hstep
  cases l with
  | begin | loadRow =>
    simp only [World.step] at hstep
    split at hstep
    · obtain rfl := some.inj hstep
      exact ⟨h.set hsound (by rintro _ _ ⟨⟩ ⟨⟩), .refl, .refl _⟩
    · cases hstep
  | loadParticipants =>
    simp only [World.step] at hstep
    split at hstep
    · obtain rfl := some.inj hstep
      refine ⟨h.set hsound ?_, .refl, .refl _⟩
      rintro _ _ ⟨⟩ ⟨⟩
      rw [h.seated.insertionSort]
    · cases hstep
  | readStream i spent now =>
    simp only [World.step] at hstep
    split at hstep
    · rename_i command row participants hx
      split at hstep
      · cases hstep
      · obtain rfl := some.inj hstep
        refine ⟨h.set hsound ?_, .refl, .refl _⟩
        rintro _ _ ⟨⟩ ⟨⟩
        exact h.read i _ _ hx rfl
    · cases hstep
  | commit i =>
    simp only [World.step] at hstep
    split at hstep
    · rename_i command row participants streamLength hx
      split_ifs at hstep
      obtain ⟨t, hwrite, rfl⟩ := map_eq_some_iff.1 hstep
      have hfits := h.sound.fits i _ hx
      obtain ⟨spent, now, hjudge⟩ := hfits.judged row participants streamLength rfl rfl rfl
      obtain ⟨hrun, hseats, hlater⟩ := rounds_write (s := ⟨row, participants⟩) h.sound.tables
        h.seated (hfits.row row rfl) (h.read i _ participants hx rfl) hjudge
        (fun actor type body heq ↦ by
          obtain rfl : command = .contribute actor type body := heq
          simp only [steady, hx, all_some, Transaction.onTurn, decide_eq_true_eq] at hsteady
          exact hsteady) hwrite
      refine ⟨⟨hsound, hseats, fun j x ps hj hps ↦ ?_⟩, hrun, hlater⟩
      change (if j = i then none else w.transactions j) = some x at hj
      split_ifs at hj
      exact (h.read j x ps hj hps).trans hlater.places
    · cases hstep
  | stop =>
    obtain rfl := some.inj hstep
    exact ⟨h.set hsound (by simp), .refl, .refl _⟩
  | join =>
    obtain rfl := some.inj hstep
    obtain ⟨hseat, hturn⟩ := of_decide_eq_true hsteady
    obtain ⟨hrun, hseats, hlater⟩ := rounds_join h.sound.tables h.seated hseat hturn rfl
    exact ⟨⟨hsound, hseats, fun i x ps hx hps ↦ (h.read i x ps hx hps).trans hlater.places⟩,
      hrun, hlater⟩

theorem SteadyRun.orderly (h : SteadyRun w w') (hw : Orderly w) :
    Orderly w' ∧ RoundRobin.Run (rounds w.tables) (rounds w'.tables) ∧
      Later w.tables w'.tables := by
  induction h with
  | refl => exact ⟨hw, .refl, .refl _⟩
  | step l _ hsteady hstep ih =>
    obtain ⟨horderly, hrun, hlater⟩ := ih
    obtain ⟨horderly', hrun', hlater'⟩ := horderly.step hsteady hstep
    exact ⟨horderly', hrun.trans hrun', hlater.trans hlater'⟩

/-- The state after `start_brainstorm`. -/
def opening (facilitator : Account) (limits : Limits)
    (participants : List (Account × Role × Option String)) (now : Time) : World :=
  ⟨start facilitator limits participants now, fun _ ↦ none⟩

theorem seated_start (facilitator : Account) (limits : Limits)
    (participants : List (Account × Role × Option String)) (now : Time) :
    Seated (start facilitator limits participants now).participants := by
  have hseat : ∀ (ps : List (Account × Role × Option String)) (qs : List Participant), Seated qs →
      Seated (ps.foldl (fun ps p ↦ addParticipant ps p.1 p.2.1 p.2.2 (nextSeat ps)) qs) := by
    intro ps
    induction ps with
    | nil => exact fun _ h ↦ h
    | cons p _ ih =>
      intro qs hqs
      refine ih _ ?_
      change Seated (addParticipant qs p.1 p.2.1 p.2.2 (nextSeat qs))
      obtain hsame | ⟨-, -, hseats⟩ : _ ∨ _ ∧ _ ∧ _ := hqs.addParticipant le_rfl
      · rw [hsame]
        exact hqs
      · exact hseats
  exact hseat participants [] rfl

theorem orderly_opening (facilitator : Account) (limits : Limits)
    (participants : List (Account × Role × Option String)) (now : Time) :
    Orderly (opening facilitator limits participants now) :=
  ⟨⟨accounted_start facilitator limits participants now, nofun⟩,
    seated_start facilitator limits participants now, nofun⟩

theorem sound_opening (facilitator : Account) (limits : Limits)
    (participants : List (Account × Role × Option String)) (now : Time) :
    (rounds (opening facilitator limits participants now).tables).Sound := by
  refine ⟨?_, rfl, nofun, nofun⟩
  exact ((accounted_start facilitator limits participants now).seated).sublist
    (filter_sublist.map _)

end

def Tables.lastSpeaker (t : Tables) : Option Account :=
  ((t.turns.map Turn.account).filter (isAgent t.participants)).getLast?

/-- **Round robin is fair in a steady run**: the next turn does not go to the Agent that just spoke,
and of two Agents there throughout, neither has two turns more. -/
theorem round_robin_fair {facilitator : Account} {limits : Limits}
    {participants : List (Account × Role × Option String)} {now : Time} {w w' : World}
    (h : SteadyRun (opening facilitator limits participants now) w) (h' : SteadyRun w w') :
    (∀ a p, 2 ≤ w'.tables.state.agents.length → w'.tables.lastSpeaker = some a →
      w'.tables.state.nextAgent = some p → p.account ≠ a) ∧
    ∀ p ∈ w.tables.state.agents, ∀ q ∈ w.tables.state.agents,
      ((w'.tables.turns.drop w.tables.turns.length).map Turn.account).count p.account ≤
        ((w'.tables.turns.drop w.tables.turns.length).map Turn.account).count q.account + 1 := by
  obtain ⟨hw, hrun, -⟩ := h.orderly (orderly_opening ..)
  obtain ⟨hw', hrun', hlater⟩ := h'.orderly hw
  have hsound := RoundRobin.Run.sound (sound_opening ..) hrun
  have hsound' := RoundRobin.Run.sound hsound hrun'
  constructor
  · intro a p htwo hlast hnext heq
    rw [hw'.state] at htwo hnext
    refine hsound'.moved a hlast ?_ ?_
    · rwa [rounds, agentsOf, length_map]
    · have hturn := nextAgent_eq ⟨w'.tables.row, w'.tables.participants⟩
      rw [hnext, map_some, heq] at hturn
      exact hturn.symm
  · intro p hp q hq
    rw [hw.state] at hp hq
    have hagent : ∀ x ∈ State.agents ⟨w.tables.row, w.tables.participants⟩,
        x.account ∈ (rounds w.tables).order ∧ isAgent w'.tables.participants x.account := by
      intro x hx
      have hmem : x.account ∈ agentsOf w.tables.participants := List.mem_map_of_mem hx
      exact ⟨hmem, mem_agentsOf_iff.1 ((agentsOf_initial hlater.places).subset hmem)⟩
    have hfair := RoundRobin.Run.fair hrun' hsound (hagent p hp).1 (hagent q hq).1
      (spoken_of_later hlater hw.sound.tables hw'.sound.tables.seated)
    rwa [count_filter (hagent p hp).2, count_filter (hagent q hq).2] at hfair

/-! ## Two Agents and a third one -/

theorem SteadyRun.runLabels {ls : List Label} : ∀ {w₁ w₂ : World}, SteadyRun w w₁ →
      ls.foldlM (fun w l ↦ if steady w l then w.step l else none) w₁ = some w₂ →
        SteadyRun w w₂ := by
  induction ls with
  | nil =>
    intro w₁ w₂ h hrun
    exact some.inj hrun ▸ h
  | cons l _ ih =>
    intro w₁ w₂ h hrun
    rw [foldlM_cons] at hrun
    obtain ⟨w₃, hstep, hrun⟩ := bind_eq_some_iff.1 hrun
    split_ifs at hstep with hsteady
    exact ih (h.step l hsteady hstep) hrun

namespace Sample

def pair : World :=
  opening "facilitator" limits
    [("writer", .agent, some "agent-1"), ("critic", .agent, some "agent-2")] 0

def ideaBy (account : Account) : List Label := alone (.contribute account (some "IDEA") "idea")

def editor : Label := .join "editor" .agent (some "agent-3") 2

/-- The third Agent comes at the end of a round and speaks next. -/
def round : List Label := ideaBy "writer" ++ ideaBy "critic" ++ [editor] ++ ideaBy "editor"

/-- The third Agent comes when one Agent has spoken twice and the other once. -/
def early : List Label := ideaBy "writer" ++ ideaBy "critic" ++ ideaBy "writer" ++ [editor]

theorem after_round : ∃ w, SteadyRun pair w ∧ w.tables.row.turnNo = 3 := by
  have hrun : (round.foldlM (fun w l ↦ if steady w l then w.step l else none) pair).any
      (fun w ↦ w.tables.row.turnNo = 3) = true := by decide +kernel
  obtain ⟨w, hw, h⟩ := (Option.any_eq_true _ _).1 hrun
  exact ⟨w, .runLabels .refl hw, of_decide_eq_true h⟩

theorem after_early : ∃ w, Reachable w ∧ 2 ≤ w.tables.state.agents.length ∧
    w.tables.lastSpeaker = some "writer" ∧
    w.tables.state.nextAgent.map Participant.account = some "writer" := by
  have hrun : (pair.runLabels early).any (fun w ↦ 2 ≤ w.tables.state.agents.length ∧
      w.tables.lastSpeaker = some "writer" ∧
      w.tables.state.nextAgent.map Participant.account = some "writer") = true := by decide +kernel
  obtain ⟨w, hw, h⟩ := (Option.any_eq_true _ _).1 hrun
  exact ⟨w, .runLabels (.start ..) hw, of_decide_eq_true h⟩

end Sample

theorem round_robin_fair_round : ∃ w : World, w.tables.row.turnNo = 3 ∧
    ∀ a p, 2 ≤ w.tables.state.agents.length → w.tables.lastSpeaker = some a →
      w.tables.state.nextAgent = some p → p.account ≠ a := by
  obtain ⟨w, hw, hturnNo⟩ := Sample.after_round
  exact ⟨w, hturnNo, (round_robin_fair hw .refl).1⟩

/-- When the third Agent comes after three turns, the one that spoke last has the next turn. -/
theorem round_robin_not_fair : ¬∀ w, Reachable w → ∀ a p, 2 ≤ w.tables.state.agents.length →
      w.tables.lastSpeaker = some a → w.tables.state.nextAgent = some p → p.account ≠ a := by
  intro h
  obtain ⟨w, hw, htwo, hlast, hnext⟩ := Sample.after_early
  obtain ⟨p, hp, haccount⟩ := map_eq_some_iff.1 hnext
  exact h w hw "writer" p htwo hlast hp haccount

end AgentColab.Brainstorm
