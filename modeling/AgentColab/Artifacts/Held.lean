import AgentColab.Artifacts.Quarantine
import Mathlib.Data.Option.Basic

/-!
# Runs in which quarantine holds

Under the condition the status, the row and the ghost field `held` say the same of every artifact:
only an upload quarantines, with its row, and only a release ends it. A file that is returned
belongs to an artifact that is not held, and the replays find the row of their artifact open.
-/

namespace AgentColab.Artifacts

open World List Option

/-! ## What the commands do -/

/-- `w'` has the tables of `w`, apart from the Events, the links and the files. -/
structure World.Same (w w' : World) : Prop where
  artifacts : w'.artifacts = w.artifacts
  ledger : w'.ledger = w.ledger
  held : w'.held = w.held
  leaks : w'.leaks = w.leaks
  again : w'.again = w.again

variable {w w' : World} {c : Context} {replayed : Bool} {q : RegisterArtifact}
    {sid workspaceId : String} {status : ArtifactStatus} {a : ArtifactRow} {now : Time}

theorem same_append {operation : Operation} {e : ArtifactEvent}
    (h : w.append c operation e = some (w', replayed)) : w.Same w' ∧ w'.files = w.files := by
  rw [World.append] at h
  split at h
  · split_ifs at h
    cases h
    exact ⟨⟨rfl, rfl, rfl, rfl, rfl⟩, rfl⟩
  · dsimp only at h
    split_ifs at h
    cases h
    exact ⟨⟨rfl, rfl, rfl, rfl, rfl⟩, rfl⟩

theorem registerArtifact_cases (h : w.registerArtifact c q = some (w', sid, replayed)) :
    ∃ w₁, w.Same w₁ ∧ (q.content = none → w₁.files = w.files) ∧
      ((replayed = true ∧ w' = w₁ ∧ ∃ a ∈ w.artifacts, a.sourceEventId = c.eventKey .register ∧
          a.artifactId = sid) ∨ (replayed = false ∧ ∃ a : ArtifactRow, a.artifactId = sid ∧
          a.workspaceId = c.workspaceId ∧ a.sourceEventId = c.eventKey .register ∧
            a.status = .registered ∧ sid ∉ w.artifacts.map ArtifactRow.artifactId ∧
              w' = { w₁ with artifacts := w₁.artifacts ++ [a] })) := by
  obtain ⟨⟨uri, sha, size⟩, -, h⟩ := bind_eq_some_iff.1 h
  obtain ⟨⟨w₁, r⟩, happend, h⟩ := bind_eq_some_iff.1 h
  obtain ⟨hsame, hfiles⟩ := same_append happend
  refine ⟨w₁, ?_, ?_, ?_⟩
  · cases hcontent : q.content with
    | none =>
      rw [hcontent] at hsame
      exact hsame
    | some =>
      rw [hcontent] at hsame
      exact ⟨hsame.1, hsame.2, hsame.3, hsame.4, hsame.5⟩
  · intro hcontent
    rw [hcontent] at hfiles
    exact hfiles
  · have hartifacts : w₁.artifacts = w.artifacts := by
      rw [hsame.artifacts]
      split <;> rfl
    cases r with
    | true =>
      obtain ⟨prior, hprior, h⟩ := bind_eq_some_iff.1 h
      cases h
      rw [hartifacts] at hprior
      exact .inl ⟨rfl, rfl, prior, mem_of_find?_eq_some hprior,
        by simpa using List.find?_some hprior, rfl⟩
    | false =>
      obtain ⟨u, hfresh, h⟩ := bind_eq_some_iff.1 h
      rw [hartifacts] at hfresh
      cases h
      exact .inr ⟨rfl, _, rfl, rfl, rfl, rfl, (guard_eq_some' u).1 hfresh, rfl⟩

/-! ## The invariant -/

structure Sound (w : World) : Prop where
  ids : (w.artifacts.map ArtifactRow.artifactId).Nodup
  source : ∀ a ∈ w.artifacts, a.workspaceId = a.sourceEventId.workspaceId
  owned : ∀ q ∈ w.ledger, ∃ a ∈ w.artifacts, a.artifactId = q.artifactId ∧
    a.workspaceId = q.workspaceId
  known : ∀ id ∈ w.held, ∃ a ∈ w.artifacts, a.artifactId = id
  held : ∀ a ∈ w.artifacts, a.artifactId ∈ w.held ↔ a.status = .quarantined
  listed : ∀ a ∈ w.artifacts, a.status = .quarantined ↔
    ∃ q ∈ w.ledger, q.artifactId = a.artifactId ∧ q.Open
  unread : w.leaks = []
  final : w.again = []

namespace Sound

variable {w w' : World}

theorem same (h : Sound w) (hsame : w.Same w') : Sound w' := by
  obtain ⟨artifacts, ledger, events, links, files, held, leaks, again⟩ := w'
  obtain rfl : artifacts = _ := hsame.artifacts
  obtain rfl : ledger = _ := hsame.ledger
  obtain rfl : held = _ := hsame.held
  obtain rfl : leaks = _ := hsame.leaks
  obtain rfl : again = _ := hsame.again
  exact ⟨h.ids, h.source, h.owned, h.known, h.held, h.listed, h.unread, h.final⟩

variable {a : ArtifactRow}

theorem eq_of_id (h : Sound w) {a' : ArtifactRow} (ha : a ∈ w.artifacts) (ha' : a' ∈ w.artifacts)
    (hid : a.artifactId = a'.artifactId) : a = a' :=
  inj_on_of_nodup_map h.ids ha ha' hid

theorem workspace (h : Sound w) (ha : a ∈ w.artifacts) {q : QuarantineRow} (hq : q ∈ w.ledger)
    (hid : q.artifactId = a.artifactId) : q.workspaceId = a.workspaceId := by
  obtain ⟨a', ha', hid', hworkspace⟩ := h.owned q hq
  rw [← hworkspace, h.eq_of_id ha' ha (hid'.trans hid)]

theorem insert (h : Sound w) (hfresh : a.artifactId ∉ w.artifacts.map ArtifactRow.artifactId)
    (hsource : a.workspaceId = a.sourceEventId.workspaceId) (hstatus : a.status = .registered) :
    Sound { w with artifacts := w.artifacts ++ [a] } := by
  have hne : ∀ a' ∈ w.artifacts, a'.artifactId ≠ a.artifactId := fun a' ha' heq ↦
    hfresh (List.mem_map.2 ⟨a', ha', heq⟩)
  have hmem : ∀ {P : ArtifactRow → Prop}, (∀ a' ∈ w.artifacts, P a') → P a →
      ∀ a' ∈ w.artifacts ++ [a], P a' := fun hold hnew a' ha' ↦ by
    rcases mem_append.1 ha' with ha' | ha'
    · exact hold a' ha'
    · exact mem_singleton.1 ha' ▸ hnew
  constructor
  · change ((w.artifacts ++ [a]).map ArtifactRow.artifactId).Nodup
    rw [map_append, map_singleton]
    exact nodup_append.2 ⟨h.ids, nodup_singleton _, fun x hx y hy ↦ by
      rw [mem_singleton.1 hy]
      exact fun heq ↦ hfresh (heq ▸ hx)⟩
  · exact hmem h.source hsource
  · intro q hq
    obtain ⟨a', ha', heq⟩ := h.owned q hq
    exact ⟨a', mem_append_left _ ha', heq⟩
  · intro sid hsid
    obtain ⟨a', ha', heq⟩ := h.known sid hsid
    exact ⟨a', mem_append_left _ ha', heq⟩
  · refine hmem h.held ⟨fun hheld ↦ ?_, fun hq ↦ ?_⟩
    · obtain ⟨a', ha', heq⟩ := h.known _ hheld
      exact absurd heq (hne a' ha')
    · rw [hstatus] at hq
      cases hq
  · refine hmem h.listed ⟨fun hq ↦ ?_, fun ⟨q, hq, hid, _⟩ ↦ ?_⟩
    · rw [hstatus] at hq
      cases hq
    · obtain ⟨a', ha', heq, -⟩ := h.owned q hq
      exact absurd (heq.trans hid) (hne a' ha')
  · exact h.unread
  · exact h.final

end Sound

/-! ## Updates of a status -/

section Mark

variable (sid : String) (status : ArtifactStatus) (a : ArtifactRow)

@[simp]
theorem artifactId_markRow : (markRow sid status a).artifactId = a.artifactId := by
  unfold markRow
  split_ifs <;> rfl

@[simp]
theorem workspaceId_markRow : (markRow sid status a).workspaceId = a.workspaceId := by
  unfold markRow
  split_ifs <;> rfl

@[simp]
theorem sourceEventId_markRow : (markRow sid status a).sourceEventId = a.sourceEventId := by
  unfold markRow
  split_ifs <;> rfl

variable {sid a}

theorem status_markRow (h : a.artifactId = sid) : (markRow sid status a).status = status := by
  rw [markRow, if_pos h]

theorem markRow_of_ne (h : a.artifactId ≠ sid) : markRow sid status a = a := if_neg h

end Mark

theorem Sound.mark (h : Sound w) {ledger : List QuarantineRow} {held : List String} (howned : ∀ q ∈
    ledger, ∃ a ∈ w.artifacts, a.artifactId = q.artifactId ∧ a.workspaceId = q.workspaceId)
    (hknown : ∀ id ∈ held, ∃ a ∈ w.artifacts, a.artifactId = id)
    (hheld : sid ∈ held ↔ status = .quarantined)
    (hlisted : status = .quarantined ↔ ∃ q ∈ ledger, q.artifactId = sid ∧ q.Open)
    (hheld' : ∀ id ≠ sid, id ∈ held ↔ id ∈ w.held) (hlisted' : ∀ id ≠ sid, (∃ q ∈ ledger,
    q.artifactId = id ∧ q.Open) ↔ ∃ q ∈ w.ledger, q.artifactId = id ∧ q.Open) :
    Sound { w.setStatus sid status with ledger := ledger, held := held } := by
  have hmap : ∀ {P : ArtifactRow → Prop}, (∀ a' ∈ w.artifacts, P (markRow sid status a')) →
        ∀ a' ∈ (w.setStatus sid status).artifacts, P a' := by
    intro P hall a' ha'
    obtain ⟨a₀, ha₀, rfl⟩ := List.mem_map.1 ha'
    exact hall a₀ ha₀
  constructor
  · change ((w.artifacts.map (markRow sid status)).map ArtifactRow.artifactId).Nodup
    rw [List.map_map]
    have : ArtifactRow.artifactId ∘ markRow sid status = ArtifactRow.artifactId :=
      funext fun a' ↦ artifactId_markRow ..
    rw [this]
    exact h.ids
  · refine hmap fun a' ha' ↦ ?_
    rw [workspaceId_markRow, sourceEventId_markRow]
    exact h.source a' ha'
  · intro q hq
    obtain ⟨a', ha', hid, hworkspace⟩ := howned q hq
    exact ⟨_, List.mem_map_of_mem ha', by rw [artifactId_markRow, hid],
      by rw [workspaceId_markRow, hworkspace]⟩
  · intro id hid
    obtain ⟨a', ha', heq⟩ := hknown id hid
    exact ⟨_, List.mem_map_of_mem ha', by rw [artifactId_markRow, heq]⟩
  · refine hmap fun a' ha' ↦ ?_
    rw [artifactId_markRow]
    by_cases hid : a'.artifactId = sid
    · rw [status_markRow status hid, hid]
      exact hheld
    · rw [markRow_of_ne status hid]
      exact (hheld' _ hid).trans (h.held a' ha')
  · refine hmap fun a' ha' ↦ ?_
    rw [artifactId_markRow]
    by_cases hid : a'.artifactId = sid
    · rw [status_markRow status hid, hid]
      exact hlisted
    · rw [markRow_of_ne status hid]
      exact (h.listed a' ha').trans (hlisted' _ hid).symm
  · exact h.unread
  · exact h.final

/-! ## Quarantine and release -/

theorem mem_hold {x : String} : x ∈ (w.hold sid).held ↔ x ∈ w.held ∨ x = sid := by
  change x ∈ (if sid ∈ w.held then w.held else w.held ++ [sid]) ↔ _
  split_ifs with hmem
  · exact (or_iff_left_of_imp fun heq ↦ heq ▸ hmem).symm
  · rw [mem_append, mem_singleton]

section Upsert

variable {ledger : List QuarantineRow} {q q' : QuarantineRow}

theorem mem_upsert_of_ne (hne : q'.artifactId ≠ q.artifactId) :
    q' ∈ upsert ledger q ↔ q' ∈ ledger := by
  unfold upsert
  split_ifs with hmem
  · rw [List.mem_map]
    constructor
    · rintro ⟨r, hr, heq⟩
      split_ifs at heq with hid
      · exact absurd (congrArg QuarantineRow.artifactId heq).symm hne
      · exact heq ▸ hr
    · exact fun h ↦ ⟨q', h, if_neg hne⟩
  · rw [mem_append, mem_singleton]
    exact ⟨fun h ↦ h.resolve_right fun heq ↦ hne (congrArg _ heq), .inl⟩

theorem of_mem_upsert (h : q' ∈ upsert ledger q) (hid : q'.artifactId = q.artifactId) :
    q'.releasedAt = q.releasedAt ∧ (q'.workspaceId = q.workspaceId ∨
      ∃ r ∈ ledger, r.artifactId = q.artifactId ∧ r.workspaceId = q'.workspaceId) := by
  unfold upsert at h
  split_ifs at h with hmem
  · obtain ⟨r, hr, rfl⟩ := List.mem_map.1 h
    split_ifs at hid ⊢ with hr'
    · exact ⟨rfl, .inr ⟨r, hr, hr', rfl⟩⟩
    · exact absurd hid hr'
  · rcases mem_append.1 h with h | h
    · exact absurd (List.mem_map.2 ⟨q', h, hid⟩) hmem
    · rw [mem_singleton.1 h]
      exact ⟨rfl, .inl rfl⟩

theorem exists_mem_upsert (ledger : List QuarantineRow) (q : QuarantineRow) :
    ∃ q' ∈ upsert ledger q, q'.artifactId = q.artifactId := by
  unfold upsert
  split_ifs with hmem
  · obtain ⟨r, hr, hid⟩ := List.mem_map.1 hmem
    exact ⟨_, List.mem_map_of_mem hr, by rw [if_pos hid]⟩
  · exact ⟨q, mem_append_right _ (mem_singleton_self q), rfl⟩

end Upsert

theorem Sound.quarantine (h : Sound w) (ha : a ∈ w.artifacts) (reason : String)
    (detail : Option String) (now : Time) :
    Sound (w.quarantine a.workspaceId a.artifactId reason detail now) := by
  have hopen : ∀ {q}, q ∈ upsert w.ledger (quarantineRow a.workspaceId a.artifactId reason detail
      now) → q.artifactId = a.artifactId → q.Open := fun hq hid ↦ (of_mem_upsert hq hid).1
  refine h.mark ?_ ?_ ?_ ?_ ?_ ?_
  · intro q hq
    by_cases hid : q.artifactId = a.artifactId
    · rcases (of_mem_upsert hq hid).2 with hworkspace | ⟨r, hr, hr', hworkspace⟩
      · exact ⟨a, ha, hid.symm, hworkspace.symm⟩
      · exact ⟨a, ha, hid.symm, by rw [← hworkspace, h.workspace ha hr hr']⟩
    · exact h.owned q ((mem_upsert_of_ne hid).1 hq)
  · intro sid hsid
    rcases mem_hold.1 hsid with hsid | rfl
    · exact h.known sid hsid
    · exact ⟨a, ha, rfl⟩
  · exact iff_of_true (mem_hold.2 (.inr rfl)) rfl
  · obtain ⟨q, hq, hid⟩ := exists_mem_upsert w.ledger
      (quarantineRow a.workspaceId a.artifactId reason detail now)
    exact iff_of_true rfl ⟨q, hq, hid, hopen hq hid⟩
  · intro sid hne
    exact mem_hold.trans (or_iff_left hne)
  · intro sid hne
    constructor <;> rintro ⟨q, hq, rfl, hopen⟩
    · exact ⟨q, (mem_upsert_of_ne hne).1 hq, rfl, hopen⟩
    · exact ⟨q, (mem_upsert_of_ne hne).2 hq, rfl, hopen⟩

theorem Sound.setStatus (h : Sound w) (ha : a ∈ w.artifacts) (hstatus : a.status ≠ .quarantined)
    (hne : status ≠ .quarantined) : Sound (w.setStatus a.artifactId status) := by
  refine h.mark h.owned h.known ?_ ?_ (fun _ _ ↦ .rfl) fun _ _ ↦ .rfl
  · exact iff_of_false (fun hheld ↦ hstatus ((h.held a ha).1 hheld)) hne
  · exact iff_of_false hne fun hq ↦ hstatus ((h.listed a ha).2 hq)

section Release

variable {workspaceId sid releasedBy reason : String} {now : Time} {q : QuarantineRow}

theorem releaseRow_of_not (h : ¬Releases workspaceId sid q) :
    releaseRow workspaceId sid releasedBy reason now q = q := if_neg h

theorem artifactId_releaseRow :
    (releaseRow workspaceId sid releasedBy reason now q).artifactId = q.artifactId := by
  unfold releaseRow
  split_ifs <;> rfl

theorem workspaceId_releaseRow :
    (releaseRow workspaceId sid releasedBy reason now q).workspaceId = q.workspaceId := by
  unfold releaseRow
  split_ifs <;> rfl

theorem not_open_releaseRow (hid : q.artifactId = sid) (hworkspace : q.workspaceId = workspaceId) :
    ¬(releaseRow workspaceId sid releasedBy reason now q).Open := by
  unfold releaseRow
  split_ifs with h
  · exact nofun
  · exact fun hopen ↦ h ⟨hid, hworkspace, hopen⟩

end Release

theorem Sound.release (h : Sound w) {releasedBy reason : String}
    (hrelease : w.release workspaceId sid releasedBy reason now = some w') : Sound w' := by
  rw [World.release] at hrelease
  split_ifs at hrelease with hhit
  obtain rfl := some.inj hrelease
  obtain ⟨q₀, hq₀, rfl, rfl, -⟩ := hhit
  obtain ⟨a, ha, hid, hworkspace⟩ := h.owned q₀ hq₀
  refine h.mark ?_ ?_ ?_ ?_ ?_ ?_
  · intro q hq
    obtain ⟨r, hr, rfl⟩ := List.mem_map.1 hq
    rw [artifactId_releaseRow, workspaceId_releaseRow]
    exact h.owned r hr
  · exact fun id hid ↦ h.known id (mem_filter.1 hid).1
  · exact iff_of_false (fun hmem ↦ of_decide_eq_true (mem_filter.1 hmem).2 rfl) nofun
  · refine iff_of_false nofun ?_
    rintro ⟨q, hq, hq', hopen⟩
    obtain ⟨r, hr, rfl⟩ := List.mem_map.1 hq
    rw [artifactId_releaseRow] at hq'
    -- the rows of an artifact are in its workspace
    have hr' : r.workspaceId = q₀.workspaceId := by
      rw [h.workspace ha hr (hq'.trans hid.symm), hworkspace]
    exact not_open_releaseRow hq' hr' hopen
  · exact fun id hne ↦ (mem_filter.trans (and_iff_left (decide_eq_true hne)))
  · intro id hne
    constructor
    · rintro ⟨q, hq, hq', hopen⟩
      obtain ⟨r, hr, rfl⟩ := List.mem_map.1 hq
      rw [artifactId_releaseRow] at hq'
      rw [releaseRow_of_not fun hhit ↦ hne (hq'.symm.trans hhit.1)] at hopen
      exact ⟨r, hr, hq', hopen⟩
    · rintro ⟨q, hq, hq', hopen⟩
      refine ⟨q, List.mem_map.2 ⟨q, hq, ?_⟩, hq', hopen⟩
      exact releaseRow_of_not fun hhit ↦ hne (hq'.symm.trans hhit.1)

/-! ## Steps -/

theorem mem_of_getArtifact (h : w.getArtifact workspaceId sid = some a) :
    a ∈ w.artifacts ∧ a.artifactId = sid ∧ a.workspaceId = workspaceId :=
  ⟨mem_of_find?_eq_some h, of_decide_eq_true (List.find?_some h :)⟩

theorem Sound.registerArtifact (h : Sound w)
    (hstep : w.registerArtifact c q = some (w', sid, replayed)) : Sound w' := by
  obtain ⟨w₁, hsame, -, ⟨-, rfl, -⟩ | ⟨-, a, rfl, hworkspace, hsource, hstatus, hfresh, rfl⟩⟩ :=
    registerArtifact_cases hstep
  · exact h.same hsame
  · refine (h.same hsame).insert ?_ ?_ hstatus
    · rw [hsame.artifacts]
      exact hfresh
    · rw [hworkspace, hsource]
      rfl

theorem same_linkArtifact {q : LinkArtifact} (h : w.linkArtifact c q = some w') : w.Same w' := by
  obtain ⟨a, -, h⟩ := bind_eq_some_iff.1 h
  obtain ⟨-, -, h⟩ := bind_eq_some_iff.1 h
  obtain ⟨-, -, h⟩ := bind_eq_some_iff.1 h
  obtain ⟨-, -, h⟩ := bind_eq_some_iff.1 h
  obtain ⟨-, -, h⟩ := bind_eq_some_iff.1 h
  obtain ⟨-, -, h⟩ := bind_eq_some_iff.1 h
  cases h
  exact ⟨rfl, rfl, rfl, rfl, rfl⟩

theorem Sound.upload (h : Sound w) {u : Upload} (hcareful : w.ReplaysWell c u)
    (hstep : w.upload c u now = some w') : Sound w' := by
  rw [World.upload] at hstep
  set w₀ : World := { w with files := w.files.write c.workspaceId u.content } with hw₀
  have h₀ : Sound w₀ := h.same ⟨rfl, rfl, rfl, rfl, rfl⟩
  obtain ⟨⟨w₁, sid, replayed⟩, hregister, hstep⟩ := bind_eq_some_iff.1 hstep
  have h₁ := h₀.registerArtifact hregister
  obtain ⟨w₂, hsame, hfiles, hcases⟩ := registerArtifact_cases hregister
  -- the files are those that the upload has written
  have hfiles₁ : w₁.files = w₀.files := by
    rcases hcases with ⟨-, rfl, -⟩ | ⟨-, a, -, -, -, -, -, rfl⟩ <;> exact hfiles rfl
  -- the artifact of the upload, in its workspace
  have hartifact : ∃ a ∈ w₁.artifacts, a.artifactId = sid ∧ a.workspaceId = c.workspaceId := by
    rcases hcases with ⟨-, rfl, a, ha, hsource, hid⟩ | ⟨-, a, hid, hworkspace, -, -, -, rfl⟩
    · refine ⟨a, hsame.artifacts ▸ ha, hid, ?_⟩
      rw [h.source a ha, hsource]
      rfl
    · exact ⟨a, mem_append_right _ (mem_singleton_self a), hid, hworkspace⟩
  dsimp only at hstep
  split at hstep
  · rename_i reason detail hrefusal
    obtain ⟨a, ha, rfl, hworkspace⟩ := hartifact
    rw [← hworkspace] at hstep
    have hq := h₁.quarantine ha reason detail now
    -- a replay is quarantined only while its row is open
    have hagain : (replayed && w₁.ledger.any fun q ↦ q.artifactId = a.artifactId ∧ ¬q.Open) =
        false := by
      rcases hcases with ⟨-, rfl, a', ha', hsource, hid⟩ | ⟨rfl, -⟩
      · rw [hfiles₁] at hrefusal
        have hopen := (hcareful.resolve_left (by rw [hrefusal]; exact nofun)) a' ha' hsource
        rw [Bool.and_eq_false_iff]
        refine .inr (List.any_eq_false.2 fun q hq ↦ ?_)
        rw [hsame.ledger] at hq
        rw [decide_eq_true_eq, not_and, not_not]
        exact fun heq ↦ hopen q hq (heq.trans hid.symm)
      · rfl
    rw [hagain] at hstep
    cases hstep
    exact hq
  · split at hstep
    · cases hstep
      exact h₁
    · split_ifs at hstep
      · cases hstep
        exact h₁
      · exact h₁.same (same_linkArtifact hstep)

theorem Sound.setStatus_self (h : Sound w) (ha : a ∈ w.artifacts)
    (hstatus : a.status = .quarantined) :
    w.Same ((w.setStatus a.artifactId .quarantined).hold a.artifactId) := by
  have hheld : a.artifactId ∈ w.held := (h.held a ha).2 hstatus
  refine ⟨?_, rfl, if_pos hheld, rfl, rfl⟩
  change w.artifacts.map (markRow a.artifactId .quarantined) = w.artifacts
  conv_rhs => rw [← List.map_id w.artifacts]
  refine map_congr_left fun a' ha' ↦ ?_
  unfold markRow
  split_ifs with hid
  · obtain rfl := h.eq_of_id ha' ha hid
    rw [← hstatus]
    rfl
  · rfl

theorem Sound.verifyArtifact (h : Sound w) {scan : ScanResult}
    (hcareful : Careful w (.verify c sid scan)) (hstep : w.verifyArtifact c sid scan = some w') :
    Sound w' := by
  obtain ⟨a, ha, hstep⟩ := bind_eq_some_iff.1 hstep
  obtain ⟨hmem, hid, hworkspace⟩ := mem_of_getArtifact ha
  obtain ⟨u, hguard, hstep⟩ := bind_eq_some_iff.1 hstep
  have harchived := (guard_eq_some' u).1 hguard
  obtain ⟨outcome, hchecked, hstep⟩ := bind_eq_some_iff.1 hstep
  have hiff := hcareful a hmem hid hworkspace harchived outcome hchecked
  cases outcome with
  | some =>
    obtain ⟨⟨w₁, r⟩, happend, hstep⟩ := bind_eq_some_iff.1 hstep
    cases hstep
    obtain ⟨hsame, -⟩ := same_append happend
    have h₁ := h.same hsame
    exact h₁.same (h₁.setStatus_self (hsame.artifacts ▸ hmem) (hiff.2 rfl))
  | none =>
    obtain ⟨⟨w₁, r⟩, happend, hstep⟩ := bind_eq_some_iff.1 hstep
    cases hstep
    obtain ⟨hsame, -⟩ := same_append happend
    refine (h.same hsame).setStatus (hsame.artifacts ▸ hmem) (fun hq ↦ ?_) nofun
    cases hiff.1 hq

theorem Sound.archiveArtifact (h : Sound w) (hcareful : Careful w (.archive c sid))
    (hstep : w.archiveArtifact c sid = some w') : Sound w' := by
  obtain ⟨a, ha, hstep⟩ := bind_eq_some_iff.1 hstep
  obtain ⟨hmem, hid, hworkspace⟩ := mem_of_getArtifact ha
  obtain rfl := some.inj hstep
  split_ifs
  · exact h.setStatus hmem (hcareful a hmem hid hworkspace) nofun
  · exact h

theorem Sound.leak (h : Sound w) (ha : a ∈ w.artifacts) (hstatus : a.status ≠ .quarantined)
    (bytes : Bytes) : Sound (w.leak a bytes) :=
  h.same ⟨rfl, rfl, rfl, if_neg fun hheld ↦ hstatus ((h.held a ha).1 hheld), rfl⟩

theorem Sound.content (h : Sound w) {acl : SubjectAcl} (hstep : w.content c sid acl = some w') :
    Sound w' := by
  obtain ⟨a, ha, hstep⟩ := bind_eq_some_iff.1 hstep
  obtain ⟨-, -, hstep⟩ := bind_eq_some_iff.1 hstep
  obtain ⟨u, hguard, hstep⟩ := bind_eq_some_iff.1 hstep
  obtain ⟨bytes, -, hstep⟩ := bind_eq_some_iff.1 hstep
  obtain rfl := some.inj hstep
  exact h.leak (mem_of_getArtifact ha).1 ((guard_eq_some' u).1 hguard) bytes

theorem verify_of_read {files : Storage} {uri sha : String} {bytes : Bytes}
    (h : (files.read uri sha).toOption = some bytes) : files.verify uri sha = none := by
  unfold Storage.verify
  cases hread : files.read uri sha with
  | ok => rfl
  | error =>
    rw [hread] at h
    cases h

theorem Sound.readArtifact (h : Sound w) {withContent workspaceAdmin : Bool} {acl : SubjectAcl}
    (hcareful : Careful w (.readArtifact c sid withContent workspaceAdmin acl))
    (hstep : w.readArtifact c sid withContent workspaceAdmin acl = some w') : Sound w' := by
  obtain ⟨a, ha, hstep⟩ := bind_eq_some_iff.1 hstep
  obtain ⟨hmem, hid, hworkspace⟩ := mem_of_getArtifact ha
  obtain ⟨-, -, hstep⟩ := bind_eq_some_iff.1 hstep
  cases withContent with
  | false =>
    obtain rfl := some.inj hstep
    exact h
  | true =>
    obtain ⟨bytes, hread, hstep⟩ := bind_eq_some_iff.1 hstep
    obtain rfl := some.inj hstep
    refine h.leak hmem (fun hq ↦ ?_) bytes
    exact hcareful rfl a hmem hid hworkspace hq (verify_of_read hread)

theorem Sound.step (h : Sound w) {l : Label} (hcareful : Careful w l) (hstep : w.step l = some w') :
    Sound w' := by
  cases l with
  | upload => exact h.upload hcareful hstep
  | register =>
    obtain ⟨⟨w₁, sid, replayed⟩, hregister, rfl⟩ := map_eq_some_iff.1 hstep
    exact h.registerArtifact hregister
  | verify => exact h.verifyArtifact hcareful hstep
  | link => exact h.same (same_linkArtifact hstep)
  | archive => exact h.archiveArtifact hcareful hstep
  | release =>
    rw [World.step] at hstep
    split_ifs at hstep
    exact h.release hstep
  | content => exact h.content hstep
  | readArtifact => exact h.readArtifact hcareful hstep
  | disk =>
    obtain rfl := some.inj hstep
    exact h.same ⟨rfl, rfl, rfl, rfl, rfl⟩

theorem Sound.start : Sound World.start where
  ids := nodup_nil
  source := forall_mem_nil _
  owned := forall_mem_nil _
  known := forall_mem_nil _
  held := forall_mem_nil _
  listed := forall_mem_nil _
  unread := rfl
  final := rfl

theorem Run.sound {ls : List Label} (hrun : Run Careful w ls w') (h : Sound w) : Sound w' := by
  induction hrun with
  | nil => exact h
  | cons hstep hcareful _ ih => exact ih (h.step hcareful hstep)

theorem Sound.kept (h : Sound w) : Kept w where
  unread := h.unread
  stays := by
    intro sid hsid
    obtain ⟨a, ha, rfl⟩ := h.known sid hsid
    exact ⟨a, ha, rfl, (h.held a ha).1 hsid⟩
  listed := h.listed
  releasable := by
    intro a ha hstatus c hc reason hpos hle now
    obtain ⟨q, hq, hid, hopen⟩ := (h.listed a ha).1 hstatus
    have hreleases : Releases c.workspaceId a.artifactId q :=
      ⟨hid, (h.workspace ha hq hid).trans hc.symm, hopen⟩
    rw [World.step, if_pos ⟨hpos, hle⟩, World.release, if_pos ⟨q, hq, hreleases⟩]
    rfl
  final := h.final

/-- When every step meets the condition, quarantine holds until the release. -/
theorem quarantine_kept {w : World} {ls : List Label} (hrun : Run Careful World.start ls w) :
    Kept w :=
  (hrun.sound .start).kept

/-! ## Runs on a few artifacts -/

namespace Sample

def workspace : String := "0a0a0a0a-0000-4000-8000-00000000000a"

def context (key : String) : Context := ⟨workspace, "creator", key, none⟩

def artifact (key : String) : String := ((context key).eventKey .register).artifactId

def clean : ScanReport := ⟨.clean, none, none⟩

def infected : ScanReport := ⟨.infected, some "ARTIFACT_MALWARE", some "EICAR-Test-File"⟩

def file (content : Bytes) (report : ScanReport) : Upload where
  filename := "note.txt"
  mime := "text/plain"
  content := content
  subject := none
  report := report

def note : Bytes := "hello".toUTF8.toList

def sha : String := String.ofList (List.replicate 64 '0')

def absent : String := storageUriFor workspace sha

def acl : SubjectAcl := fun _ _ ↦ []

/-- An upload that is held when it is repeated, released and read, and one that is held to the
end. -/
def careful : List Label :=
  [.upload (context "k1") (file note infected) 0, .upload (context "k1") (file note infected) 1,
    .release (context "rel") (artifact "k1") "false positive" 2,
    .content (context "read") (artifact "k1") acl, .upload (context "k2") (file note infected) 3]

/-- A held artifact is read by the query, let go by a verification, and read by the endpoint. -/
def careless : List Label :=
  [.upload (context "k1") (file note infected) 0,
    .readArtifact (context "read") (artifact "k1") true false acl,
    .verify (context "v1") (artifact "k1") ⟨true, none⟩,
    .content (context "read") (artifact "k1") acl]

/-- It is released, and quarantined again when the upload is repeated. A file that is not there
writes no row. -/
def repeated : List Label :=
  [.release (context "rel") (artifact "k1") "false positive" 1,
    .upload (context "k1") (file note infected) 2,
    .register (context "k2") ⟨"far.txt", "text/plain", none, some absent, some sha, some 5, []⟩,
    .verify (context "v2") (artifact "k2") ⟨true, none⟩]

end Sample

open Sample (artifact)

open Sample

theorem quarantine_kept_careful :
    ∃ w, Run Careful World.start careful w ∧ w.held = [artifact "k2"] ∧
      w.ledger.length = 2 ∧ Kept w := by
  have hrun : ((World.start.runLabels Careful careful).any fun w ↦
      w.held = [artifact "k2"] ∧ w.ledger.length = 2) = true := by decide +kernel
  obtain ⟨w, hw, hfacts⟩ := (Option.any_eq_true _ _).1 hrun
  obtain ⟨hheld, hledger⟩ := of_decide_eq_true hfacts
  have h := World.run_of_runLabels hw
  exact ⟨w, h, hheld, hledger, quarantine_kept h⟩

/-- The bytes of a held artifact are returned on both read paths, and it is no longer quarantined.
Later the replay of its upload quarantines it after its release, and another artifact is
quarantined without a row and cannot be released. -/
theorem quarantine_not_kept : ∃ w w', Run (fun _ _ ↦ True) World.start careless w ∧
      Run (fun _ _ ↦ True) w repeated w' ∧ ¬Kept w ∧ ¬Kept w' ∧
      (w.held = [artifact "k1"] ∧ w.artifacts.map ArtifactRow.status = [.verified] ∧
        w.leaks = [(artifact "k1", note), (artifact "k1", note)]) ∧ (w'.again = [artifact "k1"] ∧
        w'.artifacts.map ArtifactRow.status = [.quarantined, .quarantined] ∧
        w'.ledger.map QuarantineRow.artifactId = [artifact "k1"]) := by
  have hrun : ((World.start.runLabels (fun _ _ ↦ True) careless).any fun w ↦
      (w.held = [artifact "k1"] ∧ w.artifacts.map ArtifactRow.status = [.verified] ∧
        w.leaks = [(artifact "k1", note), (artifact "k1", note)]) ∧
      ((w.runLabels (fun _ _ ↦ True) repeated).any fun w' ↦
        w'.again = [artifact "k1"] ∧
        w'.artifacts.map ArtifactRow.status = [.quarantined, .quarantined] ∧
        w'.ledger.map QuarantineRow.artifactId = [artifact "k1"]) = true) = true := by
    decide +kernel
  obtain ⟨w, hw, hfacts⟩ := (Option.any_eq_true _ _).1 hrun
  obtain ⟨hfacts, hrest⟩ := of_decide_eq_true hfacts
  obtain ⟨w', hw', hfacts'⟩ := (Option.any_eq_true _ _).1 hrest
  have hfacts' := of_decide_eq_true hfacts'
  refine ⟨w, w', World.run_of_runLabels hw, World.run_of_runLabels hw', fun h ↦ ?_, fun h ↦ ?_,
    hfacts, hfacts'⟩
  · have := h.unread
    rw [hfacts.2.2] at this
    cases this
  · have := h.final
    rw [hfacts'.1] at this
    cases this

end AgentColab.Artifacts
