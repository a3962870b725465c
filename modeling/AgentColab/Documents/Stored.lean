import AgentColab.Documents.Publishing
import Mathlib.Data.Fintype.EquivFin

/-!
# What is stored of a version

In every run the rows, the Events and the files of the versions agree: a file is written only when
there is none under its number, so what a rolled back transaction has left is never taken for a
version. But it keeps the version with that number from being written, and an Event that is not
about a version keeps every later one from getting the number that it expects.
-/

namespace AgentColab.Documents

open List Option

theorem mem_events_of_lookup {events : List (EventKey × DocumentEvent)} {key : EventKey}
    {e : DocumentEvent} (h : events.lookup key = some e) : (key, e) ∈ events := by
  obtain ⟨before, after, rfl, -⟩ := lookup_eq_some_iff.1 h
  exact mem_append_right _ mem_cons_self

/-! ## Writing a version -/

namespace DocumentStore

variable (s : DocumentStore) (k : FileKey) (b : BuiltDocument)

theorem markdown_writeVersion : (s.writeVersion k b).markdown k = some b.markdown :=
  Function.update_self ..

theorem manifest_writeVersion : (s.writeVersion k b).manifest k = some b.manifest :=
  Function.update_self ..

variable {s k b} {k' : FileKey}

theorem markdown_writeVersion_of_ne (h : k' ≠ k) :
    (s.writeVersion k b).markdown k' = s.markdown k' := Function.update_of_ne h ..

theorem manifest_writeVersion_of_ne (h : k' ≠ k) :
    (s.writeVersion k b).manifest k' = s.manifest k' := Function.update_of_ne h ..

theorem markdown_writeMarkdown_of_ne (h : k' ≠ k) :
    (s.writeMarkdown k b).markdown k' = s.markdown k' := Function.update_of_ne h ..

end DocumentStore

namespace Shelf

variable {s : Shelf}

theorem append_cases {key : EventKey} {e : DocumentEvent} {expectedSeq : Option ℕ}
    {events : List (EventKey × DocumentEvent)} (h : s.append key e expectedSeq = some events) :
    (events = [] ∧ (key, e) ∈ s.events) ∨ (events = [(key, e)] ∧
      ∀ n ∈ expectedSeq, n = s.seq key.workspaceId e.document + 1) := by
  rw [append] at h
  split at h
  · rename_i prior hlookup
    split_ifs at h with heq
    cases h
    exact .inl ⟨rfl, heq ▸ mem_events_of_lookup hlookup⟩
  · split_ifs at h with hseq
    cases h
    refine .inr ⟨rfl, fun n hn ↦ ?_⟩
    rw [hn] at hseq
    simpa using hseq

theorem prepare_eq {x : Write} {events : List (EventKey × DocumentEvent)} {y : Write}
    (h : s.prepare x = some (y, events)) :
    y = x ∧ s.append x.row.eventId x.event (some x.row.version) = some events ∧
      ¬s.files.Exists (s.fileKey x.row.document x.row.version) := by
  obtain ⟨events', happend, h⟩ := bind_eq_some_iff.1 h
  obtain ⟨u, hguard, h⟩ := bind_eq_some_iff.1 h
  cases h
  exact ⟨rfl, happend, (guard_eq_some' u).1 hguard⟩

/-- A version that is about to be written has the next number, and its row, its Event and its files
are made of the same bytes. -/
structure Formed (s : Shelf) (x : Write) : Prop where
  version : x.row.version = s.nextVersion x.row.document
  sha256 : x.row.sha256 = x.built.sha256
  manifest : x.row.manifest = x.built.manifest
  document : x.event.document = x.row.document
  recorded : x.event.recorded = some (x.row.version, x.row.sha256)
  workspace : x.row.eventId.workspaceId = s.home x.row.document
  drafts : x.row.document.subjectType ≠ .task → x.row.status = .draftPreVerification

theorem formed_draftWrite (q : Draft) : Formed s (s.draftWrite q) :=
  ⟨rfl, rfl, rfl, rfl, rfl, rfl, fun _ ↦ rfl⟩

theorem formed_finalizeWrite (q : Finalization) : Formed s (s.finalizeWrite q) := by
  refine ⟨rfl, rfl, rfl, ?_, ?_, rfl, fun htask ↦ absurd rfl htask⟩ <;>
    unfold finalizeWrite finalizeEvent <;> cases q.result <;> rfl

theorem Formed.of_map {x y : Write} {events : List (EventKey × DocumentEvent)} (hy : Formed s y)
    (h : (s.prepare y).map some = some (some (x, events))) :
    Formed s x ∧ s.prepare x = some (x, events) := by
  obtain ⟨⟨z, events'⟩, hprepare, heq⟩ := map_eq_some_iff.1 h
  cases heq
  obtain ⟨rfl, -⟩ := prepare_eq hprepare
  exact ⟨hy, hprepare⟩

theorem draft_formed {q : Draft} {x : Write} {events : List (EventKey × DocumentEvent)}
    (h : s.draft q = some (some (x, events))) : Formed s x ∧ s.prepare x = some (x, events) := by
  rw [draft] at h
  split_ifs at h
  · cases h
  · cases h
  · exact (formed_draftWrite q).of_map h

theorem finalize_formed {q : Finalization} {x : Write} {events : List (EventKey × DocumentEvent)}
    (h : s.finalize q = some (some (x, events))) : Formed s x ∧ s.prepare x = some (x, events) := by
  rw [finalize] at h
  split_ifs at h
  · cases h
  · cases h
  · exact (formed_finalizeWrite q).of_map h

/-! ## The row of a document -/

variable {x : Write} {events : List (EventKey × DocumentEvent)}

theorem document_persist : (s.persist x events).document x.row.document =
    some (s.documentRow x) := by
  rw [document, persist, List.find?_append]
  have hnone : (s.documents.filter (·.document ≠ x.row.document)).find?
      (·.document = x.row.document) = none := by
    rw [List.find?_eq_none]
    intro r hr heq
    exact of_decide_eq_true (mem_filter.1 hr).2 (of_decide_eq_true heq)
  rw [hnone, none_or, List.find?_cons_of_pos]
  exact decide_eq_true rfl

variable {d : DocumentId}

theorem document_persist_of_ne (h : d ≠ x.row.document) :
    (s.persist x events).document d = s.document d := by
  rw [document, persist, List.find?_append, List.find?_filter]
  have hnone : [s.documentRow x].find? (·.document = d) = none := by
    rw [List.find?_eq_none]
    intro r hr heq
    rw [mem_singleton.1 hr] at heq
    exact h (of_decide_eq_true heq).symm
  rw [hnone, or_none, document]
  congr 1
  funext r
  by_cases hr : r.document = d
  · simp [hr, h]
  · simp [hr]

theorem nextVersion_persist :
    (s.persist x events).nextVersion x.row.document = x.row.version + 1 := by
  rw [nextVersion, document_persist]
  rfl

theorem nextVersion_persist_of_ne (h : d ≠ x.row.document) :
    (s.persist x events).nextVersion d = s.nextVersion d := by
  rw [nextVersion, document_persist_of_ne h, nextVersion]

end Shelf

/-! ## The invariant -/

/-- The Events of a document that record a version. -/
def Versioned (d : DocumentId) (x : EventKey × DocumentEvent) : Prop :=
  x.2.document = d ∧ x.2.recorded ≠ none

instance (d : DocumentId) (x : EventKey × DocumentEvent) : Decidable (Versioned d x) := by
  unfold Versioned
  infer_instance

/-- The row, the Event and the files of a version carry the same bytes and the same hash. -/
structure Agree (s : Shelf) (v : VersionRow) : Prop where
  event : ∃ e, (v.eventId, e) ∈ s.events ∧ e.document = v.document ∧
    e.recorded = some (v.version, v.sha256)
  files : ∃ b, s.files.readVersion (s.fileKey v.document v.version) = some b ∧
    b.sha256 = v.sha256 ∧ b.manifest = v.manifest

structure Sound (s : Shelf) : Prop where
  counted : ∀ d, s.nextVersion d = s.versions.countP (·.document = d) + 1
  numbered : ∀ v ∈ s.versions, v.version < s.nextVersion v.document
  agree : ∀ v ∈ s.versions, Agree s v
  home : ∀ x ∈ s.events, x.1.workspaceId = s.home x.2.document
  past : ∀ x ∈ s.events, ∀ r ∈ x.2.recorded, r.1 < s.nextVersion x.2.document
  recorded : ∀ d, s.events.countP (Versioned d ·) = s.versions.countP (·.document = d)
  rows : ∀ v ∈ s.versions, ∃ r ∈ s.documents, r.document = v.document ∧
    r.workspaceId = s.home v.document
  owned : ∀ r ∈ s.documents, r.workspaceId = s.home r.document
  unique : ∀ v ∈ s.versions, ∀ v' ∈ s.versions, v.document = v'.document →
    v.version = v'.version → v = v'
  drafts : ∀ v ∈ s.versions, v.document.subjectType ≠ .task → v.status = .draftPreVerification

variable {s s' : Shelf} {w w' : World}

theorem Agree.mono {v : VersionRow} (h : Agree s v) (hhome : s'.home = s.home)
    (hevents : ∀ x ∈ s.events, x ∈ s'.events)
    (hmarkdown : ∀ k, s.files.markdown k ≠ none → s'.files.markdown k = s.files.markdown k)
    (hmanifest : ∀ k, s.files.manifest k ≠ none → s'.files.manifest k = s.files.manifest k) :
    Agree s' v := by
  obtain ⟨⟨e, he, hdocument, hrecorded⟩, b, hb, hsha, hb'⟩ := h
  refine ⟨⟨e, hevents _ he, hdocument, hrecorded⟩, b, ?_, hsha, hb'⟩
  obtain ⟨md, hmd, hb⟩ := bind_eq_some_iff.1 hb
  obtain ⟨mf, hmf, hb⟩ := bind_eq_some_iff.1 hb
  rw [Shelf.fileKey, hhome]
  change s.files.markdown _ = _ at hmd
  rw [DocumentStore.readVersion, hmarkdown _ (by rw [Shelf.fileKey] at hmd; rw [hmd]; nofun)]
  rw [hmanifest _ (by rw [Shelf.fileKey] at hmf; rw [hmf]; nofun)]
  exact bind_eq_some_iff.2 ⟨md, hmd, bind_eq_some_iff.2 ⟨mf, hmf, hb⟩⟩

namespace Sound

variable {s s' : Shelf}

variable {events : List (EventKey × DocumentEvent)} {x : Write}

theorem appended (h : Sound s) {reviews : List ReviewRow}
    (hhome : ∀ x ∈ events, x.1.workspaceId = s.home x.2.document)
    (hrecorded : ∀ x ∈ events, x.2.recorded = none) :
    Sound { s with events := s.events ++ events, reviews := reviews } where
  counted := h.counted
  numbered := h.numbered
  agree := fun v hv ↦ (h.agree v hv).mono rfl (fun _ hx ↦ mem_append_left _ hx)
    (fun _ _ ↦ rfl) fun _ _ ↦ rfl
  home := fun x hx ↦ (mem_append.1 hx).elim (h.home x) (hhome x)
  past := by
    intro x hx r hr
    rcases mem_append.1 hx with hx | hx
    · exact h.past x hx r hr
    · rw [hrecorded x hx] at hr
      cases hr
  recorded := by
    intro d
    have hnone : events.countP (Versioned d ·) = 0 := by
      rw [countP_eq_zero]
      exact fun x hx hversioned ↦ (of_decide_eq_true hversioned).2 (hrecorded x hx)
    change (s.events ++ events).countP _ = _
    rw [countP_append, hnone, Nat.add_zero, h.recorded d]
  rows := h.rows
  owned := h.owned
  unique := h.unique
  drafts := h.drafts

theorem left (h : Sound s) {files : DocumentStore}
    (hmarkdown : ∀ k, s.files.markdown k ≠ none → files.markdown k = s.files.markdown k)
    (hmanifest : ∀ k, s.files.manifest k ≠ none → files.manifest k = s.files.manifest k) :
    Sound { s with files := files } :=
  ⟨h.counted, h.numbered, fun v hv ↦ (h.agree v hv).mono rfl (fun _ hx ↦ hx) hmarkdown hmanifest,
    h.home, h.past, h.recorded, h.rows, h.owned, h.unique, h.drafts⟩

theorem events_eq (h : Sound s) (hx : Shelf.Formed s x)
    (happend : s.append x.row.eventId x.event (some x.row.version) = some events) :
    events = [(x.row.eventId, x.event)] ∧
      x.row.version = s.seq (s.home x.row.document) x.row.document + 1 := by
  rcases Shelf.append_cases happend with ⟨-, hmem⟩ | ⟨rfl, hseq⟩
  · have := h.past _ hmem _ hx.recorded
    rw [hx.document, hx.version] at this
    exact absurd this (Nat.lt_irrefl _)
  · refine ⟨rfl, ?_⟩
    have := hseq _ rfl
    rwa [hx.workspace, hx.document] at this

theorem persist (h : Sound s) (hx : Shelf.Formed s x) (hprepare : s.prepare x = some (x, events)) :
    Sound (s.persist x events) := by
  obtain ⟨-, happend, hfiles⟩ := Shelf.prepare_eq hprepare
  obtain ⟨rfl, -⟩ := h.events_eq hx happend
  set k := s.fileKey x.row.document x.row.version with hk
  have hmarkdown : s.files.markdown k = none := not_not.1 fun hne ↦ hfiles (.inl hne)
  have hmanifest : s.files.manifest k = none := not_not.1 fun hne ↦ hfiles (.inr hne)
  have hne : ∀ d ≠ x.row.document, (s.persist x [(x.row.eventId, x.event)]).nextVersion d =
      s.nextVersion d := fun d hd ↦ Shelf.nextVersion_persist_of_ne hd
  have hself : (s.persist x [(x.row.eventId, x.event)]).nextVersion x.row.document =
      s.nextVersion x.row.document + 1 := by
    rw [Shelf.nextVersion_persist, hx.version]
  have hle : ∀ d, s.nextVersion d ≤ (s.persist x [(x.row.eventId, x.event)]).nextVersion d := by
    intro d
    by_cases hd : d = x.row.document
    · rw [hd, hself]
      exact Nat.le_succ _
    · rw [hne d hd]
  constructor
  · intro d
    change _ = (s.versions ++ [x.row]).countP _ + 1
    rw [countP_append, countP_singleton]
    by_cases hd : d = x.row.document
    · rw [hd, hself, h.counted, if_pos (decide_eq_true rfl)]
    · rw [hne d hd, h.counted, if_neg fun heq ↦ hd (of_decide_eq_true heq).symm]
  · intro v hv
    rcases mem_append.1 hv with hv | hv
    · exact (h.numbered v hv).trans_le (hle _)
    · rw [mem_singleton.1 hv, hself, hx.version]
      exact Nat.lt_succ_self _
  · intro v hv
    rcases mem_append.1 hv with hv | hv
    · refine (h.agree v hv).mono rfl (fun _ hmem ↦ mem_append_left _ hmem) ?_ ?_
      · intro k' hk'
        refine DocumentStore.markdown_writeVersion_of_ne fun heq ↦ hk' ?_
        rw [heq]
        exact hmarkdown
      · intro k' hk'
        refine DocumentStore.manifest_writeVersion_of_ne fun heq ↦ hk' ?_
        rw [heq]
        exact hmanifest
    · rw [mem_singleton.1 hv]
      refine ⟨⟨x.event, mem_append_right _ (mem_singleton_self _), hx.document,
        hx.recorded⟩, x.built, ?_, hx.sha256.symm, hx.manifest.symm⟩
      change (s.files.writeVersion k x.built).readVersion k = _
      rw [DocumentStore.readVersion, DocumentStore.markdown_writeVersion,
        DocumentStore.manifest_writeVersion]
      rfl
  · intro y hy
    rcases mem_append.1 hy with hy | hy
    · exact h.home y hy
    · rw [mem_singleton.1 hy, hx.document]
      exact hx.workspace
  · intro y hy r hr
    rcases mem_append.1 hy with hy | hy
    · exact (h.past y hy r hr).trans_le (hle _)
    · rw [mem_singleton.1 hy] at hr ⊢
      rw [hx.recorded] at hr
      cases hr
      rw [hx.document, hself, hx.version]
      exact Nat.lt_succ_self _
  · intro d
    change (s.events ++ [(x.row.eventId, x.event)]).countP _ = (s.versions ++ [x.row]).countP _
    rw [countP_append, countP_append, h.recorded, countP_singleton, countP_singleton]
    congr 1
    have hversioned : Versioned d (x.row.eventId, x.event) ↔ x.row.document = d := by
      rw [Versioned, hx.document, hx.recorded]
      exact and_iff_left nofun
    simp only [hversioned]
  · intro v hv
    rcases mem_append.1 hv with hv | hv
    · obtain ⟨r, hr, hdocument, hworkspace⟩ := h.rows v hv
      by_cases hd : v.document = x.row.document
      · exact ⟨_, mem_append_right _ (mem_singleton_self _), hd.symm, by rw [hd]; rfl⟩
      · refine ⟨r, mem_append_left _ (mem_filter.2 ⟨hr, ?_⟩), hdocument, hworkspace⟩
        exact decide_eq_true (hdocument ▸ hd)
    · rw [mem_singleton.1 hv]
      exact ⟨_, mem_append_right _ (mem_singleton_self _), rfl, rfl⟩
  · intro r hr
    rcases mem_append.1 hr with hr | hr
    · exact h.owned r (mem_filter.1 hr).1
    · rw [mem_singleton.1 hr]
      rfl
  · -- the new number is above those of the other versions
    have hlt : ∀ v ∈ s.versions, v.document = x.row.document → v.version ≠ x.row.version := by
      intro v hv hd heq
      have := h.numbered v hv
      rw [hd, ← hx.version, heq] at this
      exact Nat.lt_irrefl _ this
    intro v hv v' hv' hd hversion
    rcases mem_append.1 hv with hv | hv <;> rcases mem_append.1 hv' with hv' | hv'
    · exact h.unique v hv v' hv' hd hversion
    · obtain rfl := mem_singleton.1 hv'
      exact absurd hversion (hlt v hv hd)
    · obtain rfl := mem_singleton.1 hv
      exact absurd hversion.symm (hlt v' hv' hd.symm)
    · rw [mem_singleton.1 hv, mem_singleton.1 hv']
  · intro v hv
    rcases mem_append.1 hv with hv | hv
    · exact h.drafts v hv
    · rw [mem_singleton.1 hv]
      exact hx.drafts

theorem finish (h : Sound s) (hx : Shelf.Formed s x) (hprepare : s.prepare x = some (x, events))
    (ending : Shelf.Ending) : Sound (s.finish x events ending) := by
  obtain ⟨-, -, hfiles⟩ := Shelf.prepare_eq hprepare
  have hmarkdown : ∀ k, s.files.markdown k ≠ none → k ≠ s.fileKey x.row.document x.row.version := by
    rintro k hk rfl
    exact hfiles (.inl hk)
  have hmanifest : ∀ k, s.files.manifest k ≠ none → k ≠ s.fileKey x.row.document x.row.version := by
    rintro k hk rfl
    exact hfiles (.inr hk)
  cases ending with
  | commit => exact h.persist hx hprepare
  | rollback => exact h
  | rollbackMarkdown =>
    exact h.left (fun k hk ↦ DocumentStore.markdown_writeMarkdown_of_ne (hmarkdown k hk))
      fun _ _ ↦ rfl
  | rollbackBoth =>
    exact h.left (fun k hk ↦ DocumentStore.markdown_writeVersion_of_ne (hmarkdown k hk))
      fun k hk ↦ DocumentStore.manifest_writeVersion_of_ne (hmanifest k hk)

theorem conclude (h : Sound s) {ending : Shelf.Ending}
    {o : Option (Option (Write × List (EventKey × DocumentEvent)))}
    (ho : ∀ x events, o = some (some (x, events)) →
      Shelf.Formed s x ∧ s.prepare x = some (x, events))
    (hstep : s.conclude ending o = some s') : Sound s' := by
  rw [Shelf.conclude.eq_def] at hstep
  split at hstep
  · cases hstep
  · cases hstep
    exact h
  · rename_i x events
    cases hstep
    obtain ⟨hx, hprepare⟩ := ho x events rfl
    exact h.finish hx hprepare ending

theorem home_of_versionRow (h : Sound s) {workspaceId : String} {d : DocumentId} {version : ℕ}
    {v : VersionRow} (hv : s.versionRow workspaceId d version = some v) :
    v ∈ s.versions ∧ v.document = d ∧ v.version = version ∧ workspaceId = s.home d := by
  have hmem := mem_of_find?_eq_some hv
  obtain ⟨hd, hversion, r, hr, hr', hworkspace⟩ := of_decide_eq_true (List.find?_some hv :)
  exact ⟨hmem, hd, hversion, by rw [← hworkspace, h.owned r hr, hr']⟩

theorem review (h : Sound s) {c : Context} {q : Review} {now : Time}
    (hstep : s.review c q now = some s') : Sound s' := by
  obtain ⟨-, -, hstep⟩ := bind_eq_some_iff.1 hstep
  obtain ⟨v, hv, hstep⟩ := bind_eq_some_iff.1 hstep
  obtain ⟨-, -, hstep⟩ := bind_eq_some_iff.1 hstep
  obtain ⟨events, happend, hstep⟩ := bind_eq_some_iff.1 hstep
  obtain ⟨-, -, -, hhome⟩ := h.home_of_versionRow hv
  split_ifs at hstep
  · cases hstep
    exact h
  · cases hstep
    refine h.appended ?_ ?_ <;> intro x hx <;>
      rcases Shelf.append_cases happend with ⟨rfl, -⟩ | ⟨rfl, -⟩
    · cases hx
    · rw [mem_singleton.1 hx]
      exact hhome
    · cases hx
    · rw [mem_singleton.1 hx]
      rfl

end Sound

/-- What is stored, and the workspaces of the open publications. -/
structure Inv (w : World) : Prop where
  sound : Sound w.shelf
  workspace : ∀ i p, w.transactions i = some p →
    p.context.workspaceId = w.shelf.home p.request.key.document

namespace Inv

variable {w w' : World}

variable {i : ℕ}

theorem next (h : Inv w) {x : Option Publication} (hsound : Sound w'.shelf)
    (hhome : w'.shelf.home = w.shelf.home)
    (hset : w'.transactions = Function.update w.transactions i x)
    (hx : ∀ p, x = some p → p.context.workspaceId = w.shelf.home p.request.key.document) :
    Inv w' := by
  refine ⟨hsound, fun j p hp ↦ ?_⟩
  rw [hhome]
  rw [hset] at hp
  by_cases hj : j = i
  · subst hj
    rw [Function.update_self] at hp
    exact hx p hp
  · rw [Function.update_of_ne hj] at hp
    exact h.workspace j p hp

theorem shelf (h : Inv w) {s : Shelf} (hs : Sound s) (hhome : s.home = w.shelf.home) :
    Inv { w with shelf := s } :=
  ⟨hs, fun i p hp ↦ by rw [hhome]; exact h.workspace i p hp⟩

theorem begin (h : Inv w) {c : Context} {q : PublishDocument} (hstep : w.begin i c q = some w') :
    Inv w' := by
  obtain ⟨-, -, hstep⟩ := bind_eq_some_iff.1 hstep
  obtain ⟨v, hv, hstep⟩ := bind_eq_some_iff.1 hstep
  obtain ⟨-, -, hstep⟩ := bind_eq_some_iff.1 hstep
  obtain ⟨d, hd, hstep⟩ := bind_eq_some_iff.1 hstep
  dsimp only at hstep
  split at hstep
  · cases hstep
    exact h
  · obtain ⟨-, -, hstep⟩ := bind_eq_some_iff.1 hstep
    obtain ⟨-, -, hstep⟩ := bind_eq_some_iff.1 hstep
    obtain ⟨built, -, hstep⟩ := bind_eq_some_iff.1 hstep
    cases hstep
    refine h.next h.sound rfl rfl fun p hp ↦ ?_
    cases hp
    exact (h.sound.home_of_versionRow hv).2.2.2

theorem call (h : Inv w) {outcome : World.Outcome} (hstep : w.call i outcome = some w') :
    Inv w' := by
  rw [World.call] at hstep
  split at hstep
  · rename_i p hp
    split_ifs at hstep
    split at hstep <;> cases hstep
    · refine h.next h.sound rfl rfl fun p' hp' ↦ ?_
      cases hp'
      exact h.workspace i p hp
    · exact h.next h.sound rfl rfl fun _ hp' ↦ (nomatch hp')
    · exact h.next h.sound rfl rfl fun _ hp' ↦ (nomatch hp')
  · cases hstep

theorem commit (h : Inv w) {now : Time} (hstep : w.commit i now = some w') : Inv w' := by
  obtain ⟨p, hp, hstep⟩ := bind_eq_some_iff.1 hstep
  obtain ⟨ref, -, hstep⟩ := bind_eq_some_iff.1 hstep
  obtain ⟨events, happend, hstep⟩ := bind_eq_some_iff.1 hstep
  obtain ⟨-, -, hstep⟩ := bind_eq_some_iff.1 hstep
  obtain ⟨-, -, hstep⟩ := bind_eq_some_iff.1 hstep
  cases hstep
  refine h.next ?_ rfl rfl fun _ hp' ↦ (nomatch hp')
  refine h.sound.appended ?_ ?_ <;> intro x hx <;>
    rcases Shelf.append_cases happend with ⟨rfl, -⟩ | ⟨rfl, -⟩
  · cases hx
  · rw [mem_singleton.1 hx]
    exact h.workspace i p hp
  · cases hx
  · rw [mem_singleton.1 hx]
    rfl

end Inv

theorem home_conclude {ending : Shelf.Ending}
    {o : Option (Option (Write × List (EventKey × DocumentEvent)))}
    (h : s.conclude ending o = some s') : s'.home = s.home := by
  rw [Shelf.conclude.eq_def] at h
  split at h <;> cases h
  · rfl
  · cases ending <;> rfl

theorem home_review {c : Context} {q : Review} {now : Time} (h : s.review c q now = some s') :
    s'.home = s.home := by
  obtain ⟨-, -, h⟩ := bind_eq_some_iff.1 h
  obtain ⟨v, -, h⟩ := bind_eq_some_iff.1 h
  obtain ⟨-, -, h⟩ := bind_eq_some_iff.1 h
  obtain ⟨events, -, h⟩ := bind_eq_some_iff.1 h
  split_ifs at h <;> cases h <;> rfl

theorem Inv.step (h : Inv w) {l : Label} (hstep : w.step l = some w') : Inv w' := by
  cases l with
  | draft =>
    obtain ⟨s, hs, rfl⟩ := map_eq_some_iff.1 hstep
    exact h.shelf (h.sound.conclude (fun _ _ ↦ Shelf.draft_formed) hs) (home_conclude hs)
  | finalize =>
    obtain ⟨s, hs, rfl⟩ := map_eq_some_iff.1 hstep
    exact h.shelf (h.sound.conclude (fun _ _ ↦ Shelf.finalize_formed) hs) (home_conclude hs)
  | review =>
    obtain ⟨s, hs, rfl⟩ := map_eq_some_iff.1 hstep
    exact h.shelf (h.sound.review hs) (home_review hs)
  | register =>
    rw [World.step, World.register] at hstep
    split_ifs at hstep
    cases hstep
    exact ⟨h.sound, h.workspace⟩
  | begin => exact h.begin hstep
  | call => exact h.call hstep
  | commit => exact h.commit hstep
  | rollback =>
    obtain ⟨p, -, rfl⟩ := map_eq_some_iff.1 hstep
    exact h.next h.sound rfl rfl fun _ hp' ↦ (nomatch hp')

theorem Inv.start (home : DocumentId → String) : Inv (World.start home) where
  sound :=
    { counted := fun _ ↦ rfl
      numbered := forall_mem_nil _
      agree := forall_mem_nil _
      home := forall_mem_nil _
      past := forall_mem_nil _
      recorded := fun _ ↦ rfl
      rows := forall_mem_nil _
      owned := forall_mem_nil _
      unique := forall_mem_nil _
      drafts := forall_mem_nil _ }
  workspace := fun _ _ hp ↦ (nomatch hp)

theorem Run.inv {C : World → Label → Prop} {ls : List Label} (hrun : Run C w ls w') (h : Inv w) :
    Inv w' := by
  induction hrun with
  | nil => exact h
  | cons hstep _ _ ih => exact ih (h.step hstep)

end AgentColab.Documents
