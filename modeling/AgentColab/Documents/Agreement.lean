import AgentColab.Documents.Stored
import Mathlib.Data.Finset.Max
import Mathlib.Data.Finset.Order

/-!
# Which versions can be published

The version that `publishable_version` returns is the last final one of a Task, or the last draft of
another subject. The review and the publication both take final versions only, and the versions of
another subject are never final.
-/

namespace AgentColab.Documents

/-! ## What is promised -/

/-- A publication of `q` succeeds: it finds the version published, or publishes it. -/
def Publishes (w : World) (q : PublishDocument) : Prop :=
  ∀ i, w.transactions i = none → ∀ c : Context, c.workspaceId = w.shelf.home q.key.document →
    (∀ x ∈ w.shelf.events, x.1.idempotencyKey ≠ c.idempotencyKey) → ∀ now : Time,
      ∃ ls, (ls = [Label.begin i c q] ∨ ls = [.begin i c q, .call i .accepted, .commit i now]) ∧
        ∃ w', Run (fun _ _ ↦ True) w ls w' ∧ ∃ p ∈ w'.published, p.key = q.key

/-- A version can be approved, and then published at every active destination of its workspace. The
approval is the last review of the version. -/
def Approvable (w : World) (d : DocumentId) (version : ℕ) : Prop :=
  ∀ c : Context, c.workspaceId = w.shelf.home d →
    (∀ x ∈ w.shelf.events, x.1.idempotencyKey ≠ c.idempotencyKey) →
      ∀ (reviewId reason : String) (now : Time), strip reason ≠ "" →
        (∀ r ∈ w.shelf.reviews, r.document = d → r.version = version → r.decidedAt < now) →
          ∃ w₁, w.step (.review c ⟨reviewId, d, version, .approved, reason⟩ now) = some w₁ ∧
            ∀ destinationId, (w.destination (w.shelf.home d) destinationId).isSome →
              Publishes w₁ ⟨⟨d, version, destinationId⟩, none, none⟩

/-- What is published is a final version of a Task, or a draft of another subject that has been
reviewed. -/
def Proper (w : World) (p : PublishedRow) : Prop :=
  ∃ v ∈ w.shelf.versions, v.document = p.key.document ∧ v.version = p.key.version ∧
    ((v.document.subjectType = .task ∧ v.status = .finalized) ∨
      (v.document.subjectType ≠ .task ∧ v.status = .draftPreVerification ∧
        ∃ r ∈ w.shelf.reviews, r.document = v.document ∧ r.version = v.version ∧
          r.decision = .approved))

/-! ## What is published -/

def Final (s : Shelf) (k : PublishKey) : Prop :=
  ∃ v ∈ s.versions, v.document = k.document ∧ v.version = k.version ∧ v.status = .finalized

variable {s s' : Shelf} {c : Context} {q : Review} {v : VersionRow} {r : ReviewRow} {w : World}
    {d : DocumentId}

theorem Final.mono {k : PublishKey} (h : Final s k)
    (hversions : ∀ v ∈ s.versions, v ∈ s'.versions) : Final s' k := by
  obtain ⟨v, hv, hrest⟩ := h
  exact ⟨v, hversions v hv, hrest⟩

/-- The open publications and those that are committed are of final versions. -/
structure Gated (w : World) : Prop where
  pending : ∀ i p, w.transactions i = some p → Final w.shelf p.request.key
  published : ∀ p ∈ w.published, Final w.shelf p.key

theorem versions_conclude {ending : Shelf.Ending}
    {o : Option (Option (Write × List (EventKey × DocumentEvent)))}
    (h : s.conclude ending o = some s') : ∀ v ∈ s.versions, v ∈ s'.versions := by
  rw [Shelf.conclude.eq_def] at h
  split at h <;> cases h
  · exact fun v hv ↦ hv
  · cases ending
    · exact fun v hv ↦ List.mem_append_left _ hv
    · exact fun v hv ↦ hv
    · exact fun v hv ↦ hv
    · exact fun v hv ↦ hv

theorem versions_review {now : Time} (h : s.review c q now = some s') :
    s'.versions = s.versions := by
  obtain ⟨-, -, h⟩ := Option.bind_eq_some_iff.1 h
  obtain ⟨v, -, h⟩ := Option.bind_eq_some_iff.1 h
  obtain ⟨-, -, h⟩ := Option.bind_eq_some_iff.1 h
  obtain ⟨events, -, h⟩ := Option.bind_eq_some_iff.1 h
  split_ifs at h <;> cases h <;> rfl

namespace Gated

variable {w w' : World}

variable {i : ℕ}

theorem next (h : Gated w) {x : Option Publication}
    (hversions : w'.shelf.versions = w.shelf.versions)
    (hset : w'.transactions = Function.update w.transactions i x)
    (hx : ∀ p, x = some p → Final w.shelf p.request.key)
    (hpublished : ∀ p ∈ w'.published, p ∈ w.published ∨ Final w.shelf p.key) : Gated w' := by
  have hmono : ∀ v ∈ w.shelf.versions, v ∈ w'.shelf.versions := fun v hv ↦ hversions ▸ hv
  constructor
  · intro j p hp
    rw [hset] at hp
    by_cases hj : j = i
    · subst hj
      rw [Function.update_self] at hp
      exact (hx p hp).mono hmono
    · rw [Function.update_of_ne hj] at hp
      exact (h.pending j p hp).mono hmono
  · intro p hp
    rcases hpublished p hp with hp | hp
    · exact (h.published p hp).mono hmono
    · exact hp.mono hmono

theorem shelf (h : Gated w) {s : Shelf} (hversions : ∀ v ∈ w.shelf.versions, v ∈ s.versions) :
    Gated { w with shelf := s } :=
  ⟨fun i p hp ↦ (h.pending i p hp).mono hversions, fun p hp ↦ (h.published p hp).mono hversions⟩

theorem begin (h : Gated w) (hinv : Inv w) {q : PublishDocument} (hstep : w.begin i c q = some w') :
    Gated w' := by
  obtain ⟨-, -, hstep⟩ := Option.bind_eq_some_iff.1 hstep
  obtain ⟨v, hv, hstep⟩ := Option.bind_eq_some_iff.1 hstep
  obtain ⟨u, hguard, hstep⟩ := Option.bind_eq_some_iff.1 hstep
  obtain ⟨d, hd, hstep⟩ := Option.bind_eq_some_iff.1 hstep
  obtain ⟨hmem, hdocument, hversion, -⟩ := hinv.sound.home_of_versionRow hv
  dsimp only at hstep
  split at hstep
  · cases hstep
    exact h
  · obtain ⟨-, -, hstep⟩ := Option.bind_eq_some_iff.1 hstep
    obtain ⟨-, -, hstep⟩ := Option.bind_eq_some_iff.1 hstep
    obtain ⟨built, -, hstep⟩ := Option.bind_eq_some_iff.1 hstep
    cases hstep
    refine h.next rfl rfl (fun p hp ↦ ?_) fun p hp ↦ .inl hp
    cases hp
    exact ⟨v, hmem, hdocument, hversion, (Option.guard_eq_some' u).1 hguard⟩

theorem call (h : Gated w) {outcome : World.Outcome} (hstep : w.call i outcome = some w') :
    Gated w' := by
  rw [World.call] at hstep
  split at hstep
  · rename_i p hp
    split_ifs at hstep
    split at hstep <;> cases hstep
    · refine h.next rfl rfl (fun p' hp' ↦ ?_) fun p' hp' ↦ .inl hp'
      cases hp'
      exact h.pending i p hp
    · exact h.next rfl rfl (fun _ hp' ↦ by cases hp') fun p' hp' ↦ .inl hp'
    · exact h.next rfl rfl (fun _ hp' ↦ by cases hp') fun p' hp' ↦ .inl hp'
  · cases hstep

theorem commit (h : Gated w) {now : Time} (hstep : w.commit i now = some w') : Gated w' := by
  obtain ⟨p, hp, hstep⟩ := Option.bind_eq_some_iff.1 hstep
  obtain ⟨ref, -, hstep⟩ := Option.bind_eq_some_iff.1 hstep
  obtain ⟨events, -, hstep⟩ := Option.bind_eq_some_iff.1 hstep
  obtain ⟨-, -, hstep⟩ := Option.bind_eq_some_iff.1 hstep
  obtain ⟨-, -, hstep⟩ := Option.bind_eq_some_iff.1 hstep
  cases hstep
  refine h.next rfl rfl (fun _ hp' ↦ (nomatch hp')) fun p' hp' ↦ ?_
  rcases List.mem_append.1 hp' with hp' | hp'
  · exact .inl hp'
  · rw [List.mem_singleton.1 hp']
    exact .inr (h.pending i p hp)

theorem step (h : Gated w) (hinv : Inv w) {l : Label} (hstep : w.step l = some w') : Gated w' := by
  cases l with
  | draft | finalize =>
    obtain ⟨s, hs, rfl⟩ := Option.map_eq_some_iff.1 hstep
    exact h.shelf (versions_conclude hs)
  | review =>
    obtain ⟨s, hs, rfl⟩ := Option.map_eq_some_iff.1 hstep
    exact h.shelf fun v hv ↦ versions_review hs ▸ hv
  | register =>
    rw [World.step, World.register] at hstep
    split_ifs at hstep
    cases hstep
    exact ⟨h.pending, h.published⟩
  | begin => exact h.begin hinv hstep
  | call => exact h.call hstep
  | commit => exact h.commit hstep
  | rollback =>
    obtain ⟨p, -, rfl⟩ := Option.map_eq_some_iff.1 hstep
    exact h.next rfl rfl (fun _ hp' ↦ by cases hp') fun p' hp' ↦ .inl hp'

theorem run {C : World → Label → Prop} {ls : List Label} (hrun : Run C w ls w') (h : Gated w)
    (hinv : Inv w) : Gated w' := by
  induction hrun with
  | nil => exact h
  | cons hstep _ _ ih => exact ih (h.step hinv hstep) (hinv.step hstep)

end Gated

/-! ## The approval of a final version -/

theorem Sound.versionRow_eq (h : Sound s) (hv : v ∈ s.versions) :
    s.versionRow (s.home v.document) v.document v.version = some v := by
  have hsome : (s.versionRow (s.home v.document) v.document v.version).isSome := by
    rw [Shelf.versionRow, List.find?_isSome]
    obtain ⟨r, hr, hd, hworkspace⟩ := h.rows v hv
    exact ⟨v, hv, decide_eq_true ⟨rfl, rfl, r, hr, hd, hworkspace⟩⟩
  obtain ⟨v', hv'⟩ := Option.isSome_iff_exists.1 hsome
  obtain ⟨hmem, hd, hversion, -⟩ := h.home_of_versionRow hv'
  rw [hv', h.unique v' hmem v hv hd hversion]

theorem append_of_fresh {key : EventKey} {e : DocumentEvent}
    (hfresh : ∀ x ∈ s.events, x.1.idempotencyKey ≠ key.idempotencyKey) :
    s.append key e none = some [(key, e)] := by
  have hlookup : s.events.lookup key = none := by
    rw [List.lookup_eq_none_iff]
    intro y hy
    simpa using fun heq : key = y.1 ↦ hfresh y hy (heq ▸ rfl)
  rw [Shelf.append, hlookup]
  rfl

theorem not_later_self (r : ReviewRow) : ¬Shelf.Later r r := by
  rintro (h | ⟨-, h⟩)
  · exact Int.lt_irrefl _ h
  · exact String.lt_irrefl _ h

theorem approvedReview_append (hs : s'.reviews = s.reviews ++ [r])
    (happroved : r.decision = .approved) (hlast : ∀ r' ∈ s.reviews, r'.document = r.document →
    r'.version = r.version → r'.decidedAt < r.decidedAt) :
    s'.approvedReview r.document r.version = some r := by
  have hmem : r ∈ s'.reviews := hs ▸ List.mem_append_right _ (List.mem_singleton_self r)
  have hlater : ∀ r' ∈ s'.reviews, r'.document = r.document → r'.version = r.version →
      r' = r ∨ Shelf.Later r r' := by
    intro r' hr' hd hversion
    rw [hs, List.mem_append, List.mem_singleton] at hr'
    rcases hr' with hr' | rfl
    · exact .inr (.inl (hlast r' hr' hd hversion))
    · exact .inl rfl
  have hfirst : ∀ r' ∈ s'.reviews, r'.document = r.document → r'.version = r.version →
      ¬Shelf.Later r' r := by
    intro r' hr' hd hversion hbefore
    rcases hlater r' hr' hd hversion with rfl | hafter
    · exact not_later_self _ hbefore
    · rcases hafter with hlt | ⟨heq, hlt⟩ <;> rcases hbefore with hlt' | ⟨heq', hlt'⟩
      · exact Int.lt_irrefl _ (Int.lt_trans hlt hlt')
      · exact Int.lt_irrefl _ (heq' ▸ hlt)
      · exact Int.lt_irrefl _ (heq ▸ hlt')
      · exact String.lt_irrefl _ (String.lt_trans hlt hlt')
  have hsome : (s'.reviews.find? fun x ↦ (x.document = r.document ∧ x.version = r.version) ∧
      ∀ r' ∈ s'.reviews, r'.document = r.document → r'.version = r.version →
        ¬Shelf.Later r' x).isSome :=
    List.find?_isSome.2 ⟨r, hmem, decide_eq_true ⟨⟨rfl, rfl⟩, hfirst⟩⟩
  obtain ⟨x, hx⟩ := Option.isSome_iff_exists.1 hsome
  obtain ⟨⟨hd, hversion⟩, hx'⟩ := of_decide_eq_true (List.find?_some hx :)
  obtain rfl : x = r := by
    rcases hlater x (List.mem_of_find?_eq_some hx) hd hversion with heq | hafter
    · exact heq
    · exact absurd hafter (hx' r hmem rfl rfl)
  rw [Shelf.approvedReview, hx]
  exact Option.filter_eq_some_iff.2 ⟨rfl, decide_eq_true happroved⟩

/-! ## The publication of an approved version -/

theorem attemptNo_lt_next {a : AttemptRow} (ha : a ∈ w.attempts) :
    a.attemptNo < w.nextAttemptNo a.key := by
  have hle : ∀ (ns : List ℕ) (m : ℕ), m ≤ ns.foldl max m ∧ ∀ n ∈ ns, n ≤ ns.foldl max m := by
    intro ns
    induction ns with
    | nil => exact fun m ↦ ⟨Nat.le_refl m, List.forall_mem_nil _⟩
    | cons n _ ih =>
      intro m
      obtain ⟨hmax, hall⟩ := ih (max m n)
      refine ⟨(Nat.le_max_left m n).trans hmax, fun k hk ↦ ?_⟩
      rcases List.mem_cons.1 hk with rfl | hk
      · exact (Nat.le_max_right m k).trans hmax
      · exact hall k hk
  refine Nat.lt_succ_of_le ((hle _ 0).2 _ ?_)
  exact List.mem_map_of_mem (List.mem_filter.2 ⟨ha, decide_eq_true rfl⟩)

section Ready

variable {w : World} {i : ℕ} {c : Context} {q : PublishDocument} {v : VersionRow}
  {d : DestinationRow}

theorem begin_published {p : PublishedRow} (hfree : w.transactions i = none)
    (hrow : w.shelf.versionRow c.workspaceId q.key.document q.key.version = some v)
    (hfinal : v.status = .finalized)
    (hdestination : w.destination c.workspaceId q.key.destinationId = some d)
    (hexisting : w.existing q.key = some p) : w.begin i c q = some w := by
  simp [World.begin, hfree, hrow, hfinal, hdestination, hexisting, guard]

def opened (w : World) (c : Context) (q : PublishDocument) (kind : PublisherKind)
    (b : BuiltDocument) (v : VersionRow) : Publication :=
  ⟨c, q, kind, ⟨c.workspaceId, q.key.document, q.key.version, b, v.sha256⟩, w.nextAttemptNo q.key,
    none⟩

theorem begin_open {b : BuiltDocument} (hfree : w.transactions i = none)
    (hrow : w.shelf.versionRow c.workspaceId q.key.document q.key.version = some v)
    (hfinal : v.status = .finalized)
    (hdestination : w.destination c.workspaceId q.key.destinationId = some d)
    (hexisting : w.existing q.key = none) (hcorrection : q.correctionOfVersion = none)
    (hreview : w.shelf.approvedReview q.key.document q.key.version = some r)
    (hread : w.shelf.files.readVersion ⟨c.workspaceId, q.key.document, q.key.version⟩ = some b) :
    w.begin i c q = some (w.set i (some (opened w c q d.kind b v))) := by
  simp [World.begin, hfree, hrow, hfinal, hdestination, hexisting, hcorrection, hreview, hread,
    guard, opened]

theorem commit_eq {p : Publication} {ref : ExternalRef}
    {events : List (EventKey × DocumentEvent)} (hp : w.transactions i = some p)
    (href : p.record = some ref)
    (happend : w.shelf.append (p.context.eventKey .publish) (.published p.request.key.document
      p.request.key.version p.kind ref) none = some events)
    (hexisting : w.existing p.request.key = none)
    (hnumber : ∀ a ∈ w.attempts, a.key = p.request.key → a.attemptNo ≠ p.attemptNo)
    (now : Time) : w.commit i now = some ((w.record p ref events now).set i none) := by
  simp only [World.commit, hp, href, happend, hexisting, Option.bind_eq_bind, Option.bind_some,
    guard]
  rw [if_pos trivial, if_pos hnumber]
  rfl

end Ready

/-- A version that is final and approved is published at an active destination. -/
theorem Inv.publishes (h : Inv w) (hv : v ∈ w.shelf.versions) (hfinal : v.status = .finalized)
    (hreview : w.shelf.approvedReview v.document v.version = some r) {destinationId : String}
    (hdestination : (w.destination (w.shelf.home v.document) destinationId).isSome) :
    Publishes w ⟨⟨v.document, v.version, destinationId⟩, none, none⟩ := by
  rintro i hfree c hworkspace hfresh now
  obtain ⟨d, hd⟩ := Option.isSome_iff_exists.1 hdestination
  have hrow := h.sound.versionRow_eq hv
  dsimp only at hworkspace
  rw [← hworkspace] at hrow hd
  set q : PublishDocument := ⟨⟨v.document, v.version, destinationId⟩, none, none⟩ with hq
  cases hexisting : w.existing q.key with
  | some p =>
    have hstep : w.step (.begin i c q) = some w := begin_published hfree hrow hfinal hd hexisting
    refine ⟨_, .inl rfl, w, .cons hstep trivial (.nil w), p, ?_, ?_⟩
    · exact List.mem_of_find?_eq_some hexisting
    · exact of_decide_eq_true (List.find?_some hexisting :)
  | none =>
    obtain ⟨b, hread, -⟩ := (h.sound.agree v hv).files
    rw [Shelf.fileKey, ← hworkspace] at hread
    set p := opened w c q d.kind b v with hp
    have hbegin : w.step (.begin i c q) = some (w.set i (some p)) :=
      begin_open hfree hrow hfinal hd hexisting rfl hreview hread
    set w₁ := w.set i (some p) with hw₁
    have hp₁ : w₁.transactions i = some p := Function.update_self ..
    set p₂ : Publication := { p with record := (w₁.write p).2 } with hp₂
    set w₂ := ((w₁.take p).count p).set i (some p₂) with hw₂
    have hcall : w₁.step (.call i .accepted) = some w₂ := by
      rw [World.step, World.call, hp₁]
      rfl
    have happend : w₂.shelf.append (c.eventKey .publish)
        (.published q.key.document q.key.version d.kind (w₁.write p).2) none =
          some [(c.eventKey .publish,
            .published q.key.document q.key.version d.kind (w₁.write p).2)] :=
      append_of_fresh hfresh
    have hnumber : ∀ a ∈ w₂.attempts, a.key = q.key → a.attemptNo ≠ w.nextAttemptNo q.key := by
      intro a ha hkey
      rw [← hkey]
      exact Nat.ne_of_lt (attemptNo_lt_next ha)
    have hcommit := commit_eq (w := w₂) (i := i) (p := p₂) (Function.update_self ..) rfl happend
      hexisting hnumber now
    refine ⟨_, .inr rfl, _, .cons hbegin trivial (.cons hcall trivial
      (.cons hcommit trivial (.nil _))), World.publishedRow p₂ (w₁.write p).2 now, ?_, rfl⟩
    exact List.mem_append_right _ (List.mem_singleton_self _)

/-! ## When the review agrees -/

theorem publishable_spec (h : s.publishableVersion d = some v) :
    v ∈ s.versions ∧ v.document = d ∧ (d.subjectType = .task ↔ v.status = .finalized) := by
  obtain ⟨⟨hd, hiff⟩, -⟩ := of_decide_eq_true (List.find?_some h :)
  exact ⟨List.mem_of_find?_eq_some h, hd, hiff⟩

theorem exists_publishable (hv : v ∈ s.versions) (hd : v.document = d)
    (hiff : d.subjectType = .task ↔ v.status = .finalized) :
    ∃ v', s.publishableVersion d = some v' := by
  set eligible := (s.versions.filter fun v ↦
    v.document = d ∧ (d.subjectType = .task ↔ v.status = .finalized)).toFinset with heligible
  have hmem : ∀ v, v ∈ eligible ↔ v ∈ s.versions ∧ v.document = d ∧
      (d.subjectType = .task ↔ v.status = .finalized) := by
    intro v
    rw [heligible, List.mem_toFinset, List.mem_filter, decide_eq_true_eq]
  obtain ⟨m, hm, hmax⟩ := eligible.exists_max_image VersionRow.version
    ⟨v, (hmem v).2 ⟨hv, hd, hiff⟩⟩
  obtain ⟨hm', hmd, hmiff⟩ := (hmem m).1 hm
  refine Option.isSome_iff_exists.1 (List.find?_isSome.2 ⟨m, hm', decide_eq_true ?_⟩)
  exact ⟨⟨hmd, hmiff⟩, fun v' hv' hd' hiff' ↦ hmax v' ((hmem v').2 ⟨hv', hd', hiff'⟩)⟩

theorem review_eq (h : Sound s) (hv : v ∈ s.versions) (hfinal : v.status = .finalized)
    (hworkspace : c.workspaceId = s.home v.document)
    (hfresh : ∀ x ∈ s.events, x.1.idempotencyKey ≠ c.idempotencyKey) (hd : q.document = v.document)
    (hversion : q.version = v.version) (hreason : strip q.reason ≠ "") (now : Time) :
    s.review c q now = some { s with
      events := s.events ++
        [(c.eventKey .review, .reviewed q.document q.version c.accountId q.decision)]
      reviews := s.reviews ++ [q.row c now] } := by
  have hrow := h.versionRow_eq hv
  rw [← hworkspace, ← hd, ← hversion] at hrow
  have happend : s.append (c.eventKey .review)
      (.reviewed q.document q.version c.accountId q.decision) none =
        some [(c.eventKey .review, .reviewed q.document q.version c.accountId q.decision)] :=
    append_of_fresh hfresh
  simp only [Shelf.review, hrow, hfinal, happend, Option.bind_eq_bind, Option.bind_some, guard]
  rw [if_pos hreason, if_pos trivial, if_neg nofun]
  rfl

theorem Inv.approvable (h : Inv w) (hv : v ∈ w.shelf.versions) (hfinal : v.status = .finalized) :
    Approvable w v.document v.version := by
  intro c hworkspace hfresh reviewId reason now hreason hlast
  set q : Review := ⟨reviewId, v.document, v.version, .approved, reason⟩ with hq
  have hreview := review_eq h.sound hv hfinal hworkspace hfresh (q := q) rfl rfl hreason now
  have hstep : w.step (.review c q now) = _ := congrArg (Option.map _) hreview
  refine ⟨_, hstep, fun destinationId hdestination ↦ ?_⟩
  exact (h.step hstep).publishes (v := v) hv hfinal
    (approvedReview_append (r := q.row c now) rfl rfl hlast) hdestination

theorem Inv.not_approvable (h : Inv w) (hv : v ∈ w.shelf.versions)
    (hdraft : v.status ≠ .finalized) : ¬Approvable w v.document v.version := by
  intro happrovable
  have : Infinite String := Infinite.of_injective (fun n : ℕ ↦ toString n) fun _ _ heq ↦
    toString_nat_injective heq
  obtain ⟨key, hkey⟩ := Infinite.exists_notMem_finset
    (w.shelf.events.map fun x ↦ x.1.idempotencyKey).toFinset
  obtain ⟨now, hnow⟩ : ∃ now : Time, ∀ r ∈ w.shelf.reviews, r.decidedAt < now := by
    obtain ⟨now, hnow⟩ := (w.shelf.reviews.map ReviewRow.decidedAt).toFinset.exists_le
    refine ⟨now + 1, fun r hr ↦ Int.lt_add_one_of_le (hnow _ ?_)⟩
    exact List.mem_toFinset.2 (List.mem_map_of_mem hr)
  obtain ⟨w₁, hstep, -⟩ := happrovable ⟨w.shelf.home v.document, "", key⟩ rfl
    (fun x hx heq ↦ hkey (List.mem_toFinset.2 (List.mem_map.2 ⟨x, hx, heq⟩))) "" "ok" now
    (by decide) fun r hr _ _ ↦ hnow r hr
  obtain ⟨s', hreview, -⟩ := Option.map_eq_some_iff.1 hstep
  obtain ⟨-, -, hreview⟩ := Option.bind_eq_some_iff.1 hreview
  obtain ⟨v', hv', hreview⟩ := Option.bind_eq_some_iff.1 hreview
  obtain ⟨u, hguard, hreview⟩ := Option.bind_eq_some_iff.1 hreview
  rw [h.sound.versionRow_eq hv] at hv'
  obtain rfl := Option.some.inj hv'
  exact hdraft ((Option.guard_eq_some' u).1 hguard)

/-- What is published is always proper. The version that may be published can be approved and
published exactly for a Task, or when there is none. -/
theorem publishable_agrees_iff {home : DocumentId → String} {w : World} {ls : List Label}
    (hrun : Run (fun _ _ ↦ True) (World.start home) ls w) : (∀ p ∈ w.published, Proper w p) ∧
      ∀ d, (∀ v, w.shelf.publishableVersion d = some v → Approvable w d v.version) ↔
        (d.subjectType = .task ∨ ∀ v ∈ w.shelf.versions, v.document ≠ d) := by
  have h := hrun.inv (.start home)
  have hgated : Gated w := by
    have hstart : Gated (World.start home) := ⟨fun _ _ hp ↦ (nomatch hp), List.forall_mem_nil _⟩
    exact hstart.run hrun (.start home)
  constructor
  · intro p hp
    obtain ⟨v, hv, hd, hversion, hfinal⟩ := hgated.published p hp
    refine ⟨v, hv, hd, hversion, .inl ⟨?_, hfinal⟩⟩
    by_contra htask
    have := h.sound.drafts v hv htask
    rw [hfinal] at this
    cases this
  · intro d
    constructor
    · intro happrovable
      by_contra hnot
      obtain ⟨htask, hsome⟩ := not_or.1 hnot
      push Not at hsome
      obtain ⟨v, hv, rfl⟩ := hsome
      have hdraft := h.sound.drafts v hv htask
      obtain ⟨v', hv'⟩ := exists_publishable hv rfl
        (iff_of_false htask (by rw [hdraft]; exact nofun))
      obtain ⟨hmem, hd, hiff⟩ := publishable_spec hv'
      refine h.not_approvable hmem (fun hfinal ↦ htask (hiff.2 hfinal)) ?_
      rw [hd]
      exact happrovable v' hv'
    · intro hor v hv
      obtain ⟨hmem, rfl, hiff⟩ := publishable_spec hv
      rcases hor with htask | hnone
      · exact h.approvable hmem (hiff.1 htask)
      · exact absurd rfl (hnone v hmem)

/-! ## Runs on two documents -/

namespace Minutes

def home : DocumentId → String := fun _ ↦ "workspace"

def task : DocumentId := ⟨.task, "task-1"⟩

def brainstorm : DocumentId := ⟨.brainstorm, "bs-1"⟩

def draftOf (d : DocumentId) (key : String) : Draft where
  document := d
  accountId := "agent"
  idempotencyKey := key
  skeleton := fun _ _ ↦ ⟨"# Draft", "manifest"⟩
  prose := none
  freezeSeq := 10

def passed : Finalization where
  taskId := "task-1"
  accountId := "verifier"
  idempotencyKey := "k2"
  verificationId := "ver-1"
  revision := 1
  result := .passed
  skeleton := fun _ ↦ ⟨"# Final", "manifest"⟩
  freezeSeq := 20

/-- The final version of a Task is approved and published, and a brainstorm is drafted. -/
def labels : List Label :=
  [.draft (draftOf task "k1") .commit, .finalize passed .commit,
    .register ⟨"wiki", "workspace", .bookstack, true⟩,
    .review ⟨"workspace", "owner", "k3"⟩ ⟨"rev-1", task, 2, .approved, "good"⟩ 0,
    .begin 0 ⟨"workspace", "owner", "k4"⟩ ⟨⟨task, 2, "wiki"⟩, none, none⟩, .call 0 .accepted,
    .commit 0 1, .draft (draftOf brainstorm "k5") .commit]

end Minutes

theorem publishable_agrees_minutes :
    ∃ w, Run (fun _ _ ↦ True) (World.start Minutes.home) Minutes.labels w ∧
      w.published.map PublishedRow.key = [⟨Minutes.task, 2, "wiki"⟩] ∧
        (∀ p ∈ w.published, Proper w p) ∧
          ∀ d, (∀ v, w.shelf.publishableVersion d = some v → Approvable w d v.version) ↔
            (d.subjectType = .task ∨ ∀ v ∈ w.shelf.versions, v.document ≠ d) := by
  have hrun : (((World.start Minutes.home).runLabels (fun _ _ ↦ True) Minutes.labels).any fun w ↦
      w.published.map PublishedRow.key = [⟨Minutes.task, 2, "wiki"⟩]) = true := by decide
  obtain ⟨w, hw, hfacts⟩ := (Option.any_eq_true _ _).1 hrun
  have h := World.run_of_runLabels hw
  exact ⟨w, h, of_decide_eq_true hfacts, publishable_agrees_iff h⟩

/-- The draft of a brainstorm is the version to publish, and cannot be approved. -/
theorem publishable_disagrees :
    ∃ w v, Run (fun _ _ ↦ True) (World.start Minutes.home) Minutes.labels w ∧
      w.shelf.publishableVersion Minutes.brainstorm = some v ∧
        ¬Approvable w Minutes.brainstorm v.version := by
  have hrun : (((World.start Minutes.home).runLabels (fun _ _ ↦ True) Minutes.labels).any fun w ↦
      (w.shelf.publishableVersion Minutes.brainstorm).any fun v ↦
        v.status = .draftPreVerification) = true := by decide
  obtain ⟨w, hw, hfacts⟩ := (Option.any_eq_true _ _).1 hrun
  obtain ⟨v, hv, hstatus⟩ := (Option.any_eq_true _ _).1 hfacts
  have h := World.run_of_runLabels hw
  obtain ⟨hmem, hd, -⟩ := publishable_spec hv
  refine ⟨w, v, h, hv, ?_⟩
  rw [← hd]
  refine (h.inv (.start _)).not_approvable hmem ?_
  rw [of_decide_eq_true hstatus]
  exact nofun

end AgentColab.Documents
