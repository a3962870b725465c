import AgentColab.Documents.Publishing
import Mathlib.Data.List.Count

/-!
# Publications that happen once

The destination takes a version before the transaction commits. Under the condition a version is
handed to a destination once, the publisher accepts it, and the transaction commits. Every object is
of a call, and every call is of a row or of the transaction that is about to write it.
-/

namespace AgentColab.Documents

open List Option
open World (publishedRow start)

open Function (update_of_ne update_self)

/-! ## What a publisher does -/

namespace Destination

variable {d : Destination} {kind : PublisherKind} {t : PublishTarget} {document : DocumentId}
  {version : ℕ}

theorem update_eq (d : Destination) (kind : PublisherKind) (t : PublishTarget) :
    d.update kind t = d.publish kind t := by
  cases kind <;> rfl

theorem putFile_of_countP_eq_zero {files : List PublishedFile}
    (h : files.countP (fun f ↦ f.path.document = t.document ∧ f.path.version = t.version) = 0) :
    putFile files ⟨t.fileKey, t.built⟩ = files ++ [⟨t.fileKey, t.built⟩] := by
  rw [putFile, filter_eq_self.2]
  intro f hf
  rw [decide_eq_true_eq]
  intro heq
  refine countP_eq_zero.1 h f hf (decide_eq_true ?_)
  rw [heq]
  exact ⟨rfl, rfl⟩

theorem not_mem_head (h : d.count t.document t.version .git = 0) :
    (⟨t.fileKey, t.built⟩ : PublishedFile) ∉ d.head := fun hmem ↦
  countP_eq_zero.1 h _ hmem (decide_eq_true ⟨rfl, rfl⟩)

theorem writeCommit_eq (h : d.count t.document t.version .git = 0) :
    d.writeCommit t = ({ d with commits := d.commits ++ [d.head ++ [⟨t.fileKey, t.built⟩]] },
      .commit d.commits.length t.fileKey) := by
  rw [writeCommit, if_neg (not_mem_head h), putFile_of_countP_eq_zero h]

theorem count_publish (h : d.count t.document t.version kind = 0) (kind' : PublisherKind) :
    (d.publish kind t).1.count document version kind' = d.count document version kind' +
      if kind' = kind ∧ t.document = document ∧ t.version = version then 1 else 0 := by
  cases kind with
  | filesystem =>
    cases kind' with
    | filesystem =>
      change (putFile d.files _).countP _ = d.files.countP _ + _
      rw [putFile_of_countP_eq_zero h, countP_append, countP_singleton]
      by_cases hk : t.document = document ∧ t.version = version <;>
        simp [PublishTarget.fileKey, hk]
    | git => rfl
    | bookstack => rfl
  | git =>
    rw [publish, writeCommit_eq h]
    cases kind' with
    | filesystem => rfl
    | bookstack => rfl
    | git =>
      change (List.getLastD (d.commits ++ [_]) []).countP _ = d.head.countP _ + _
      rw [getLastD_concat, countP_append, countP_singleton]
      by_cases hk : t.document = document ∧ t.version = version <;>
        simp [PublishTarget.fileKey, hk]
  | bookstack =>
    cases kind' with
    | filesystem => rfl
    | git => rfl
    | bookstack =>
      change (d.pages ++ [_]).countP _ = d.pages.countP _ + _
      rw [countP_append, countP_singleton]
      simp

theorem has_publish (h : d.count t.document t.version kind = 0) :
    (d.publish kind t).1.Has t.document t.version (d.publish kind t).2 := by
  cases kind with
  | filesystem =>
    exact ⟨rfl, rfl, _, mem_append_right _ (mem_singleton_self _), rfl⟩
  | git =>
    rw [publish, writeCommit_eq h]
    refine ⟨rfl, rfl, ⟨t.fileKey, t.built⟩, ?_, rfl⟩
    rw [getD_eq_getElem?_getD, List.getElem?_concat_length]
    exact mem_append_right _ (mem_singleton_self _)
  | bookstack =>
    exact ⟨_, mem_append_right _ (mem_singleton_self _), rfl, rfl, rfl⟩

theorem Has.publish {ref : ExternalRef} (hhas : d.Has document version ref)
    (h : d.count t.document t.version kind = 0) :
    (d.publish kind t).1.Has document version ref := by
  cases kind with
  | filesystem =>
    cases ref with
    | file =>
      obtain ⟨hd, hv, f, hf, hpath⟩ := hhas
      refine ⟨hd, hv, f, ?_, hpath⟩
      change f ∈ putFile d.files _
      rw [putFile_of_countP_eq_zero h]
      exact mem_append_left _ hf
    | commit => exact hhas
    | page => exact hhas
  | git =>
    rw [Destination.publish, writeCommit_eq h]
    cases ref with
    | file => exact hhas
    | page => exact hhas
    | commit n =>
      obtain ⟨hd, hv, f, hf, hpath⟩ := hhas
      refine ⟨hd, hv, f, ?_, hpath⟩
      rw [getD_eq_getElem?_getD] at hf ⊢
      cases hn : d.commits[n]? with
      | none =>
        rw [hn] at hf
        cases hf
      | some =>
        have hlt : n < d.commits.length := (List.getElem?_eq_some_iff.1 hn).1
        change f ∈ ((d.commits ++ [_])[n]?).getD []
        rw [List.getElem?_append_left hlt]
        exact hf
  | bookstack =>
    cases ref with
    | file => exact hhas
    | commit => exact hhas
    | page =>
      obtain ⟨p, hp, hrest⟩ := hhas
      exact ⟨p, mem_append_left _ hp, hrest⟩

end Destination

/-! ## What is promised -/

/-- A destination holds one object of a version at most, a correction leaves no older page of the
version that it corrects, a version is published once, with a reference that names what is there,
and when no call is under way every call has its row, numbered from one on. -/
structure Recorded (w : World) : Prop where
  single : ∀ destinationId document version kind,
    (w.held destinationId).count document version kind ≤ 1
  replaced : ∀ p ∈ w.published, ∀ v, p.correctionOfVersion = some v → ∀ b,
    p.externalRef = .page b → ∀ page ∈ (w.held p.key.destinationId).pages,
      page.document = p.key.document → page.version = v → b ≤ page.pageId
  once : (w.published.map PublishedRow.key).Nodup
  named : ∀ p ∈ w.published,
    (w.held p.key.destinationId).Has p.key.document p.key.version p.externalRef
  numbered : ∀ k, ∃ n, (w.attempts.filter (·.key = k)).map AttemptRow.attemptNo = List.range' 1 n
  attempts : ∀ k, (∀ i p, w.transactions i = some p → p.request.key = k → p.record = none) →
    w.calls.count k = w.attempts.countP (·.key = k)

/-- No version is handed twice to a destination, the publisher accepts it and the transaction
commits, and no page of the version that is corrected is there. -/
def Careful (w : World) : Label → Prop
  | .call i outcome => ∀ p ∈ w.transactions i, outcome = .accepted ∧ p.request.key ∉ w.calls ∧
      (p.kind = .bookstack → ∀ v ∈ p.request.correctionOfVersion,
        ∀ page ∈ (w.held p.request.key.destinationId).pages,
          page.document = p.request.key.document → page.version ≠ v)
  | .rollback i => ∀ p ∈ w.transactions i, p.record = none
  | _ => True

instance (w : World) (l : Label) : Decidable (Careful w l) := by
  cases l <;> unfold Careful <;> infer_instance

/-! ## The invariant -/

/-- The transaction `i` has handed its version over. -/
structure Handed (w : World) (p : Publication) (ref : ExternalRef) : Prop where
  called : p.request.key ∈ w.calls
  notPublished : p.request.key ∉ w.published.map PublishedRow.key
  has : (w.held p.request.key.destinationId).Has p.request.key.document p.request.key.version ref
  replaced : ∀ v, p.request.correctionOfVersion = some v → ∀ b, ref = .page b →
    ∀ page ∈ (w.held p.request.key.destinationId).pages, page.document = p.request.key.document →
      page.version = v → b ≤ page.pageId

structure Kept (w : World) : Prop where
  single : ∀ destinationId document version kind,
    (w.held destinationId).count document version kind ≤ 1
  objects : ∀ destinationId document version kind,
    0 < (w.held destinationId).count document version kind →
      ⟨document, version, destinationId⟩ ∈ w.calls
  pages : ∀ destinationId, ∀ page ∈ (w.held destinationId).pages,
    page.pageId < (w.held destinationId).nextPage
  replaced : ∀ p ∈ w.published, ∀ v, p.correctionOfVersion = some v → ∀ b,
    p.externalRef = .page b → ∀ page ∈ (w.held p.key.destinationId).pages,
      page.document = p.key.document → page.version = v → b ≤ page.pageId
  once : (w.published.map PublishedRow.key).Nodup
  named : ∀ p ∈ w.published,
    (w.held p.key.destinationId).Has p.key.document p.key.version p.externalRef
  attempts : w.attempts = w.published.map fun p ↦ ⟨p.key, 1, true, none⟩
  calls : w.calls.Nodup
  recorded : ∀ k ∈ w.calls, k ∈ w.published.map PublishedRow.key ∨
    ∃ i p, w.transactions i = some p ∧ p.request.key = k ∧ p.record ≠ none
  published : ∀ p ∈ w.published, p.key ∈ w.calls
  target : ∀ i p, w.transactions i = some p → p.target.document = p.request.key.document ∧
    p.target.version = p.request.key.version ∧ p.attemptNo = 1
  handed : ∀ i p ref, w.transactions i = some p → p.record = some ref → Handed w p ref
  apart : ∀ i p j p', w.transactions i = some p → w.transactions j = some p' → p.record ≠ none →
    p'.record ≠ none → p.request.key = p'.request.key → i = j

/-! ## A destination takes a version -/

namespace Destination

variable {d : Destination} {kind : PublisherKind} {t : PublishTarget}

theorem mem_pages_publish {page : Page} (h : page ∈ (d.publish kind t).1.pages) :
    page ∈ d.pages ∨ (kind = .bookstack ∧ page.pageId = d.nextPage) := by
  cases kind with
  | filesystem => exact .inl h
  | git =>
    rw [publish, writeCommit] at h
    split_ifs at h <;> exact .inl h
  | bookstack =>
    rcases mem_append.1 h with h | h
    · exact .inl h
    · rw [mem_singleton.1 h]
      exact .inr ⟨rfl, rfl⟩

theorem nextPage_publish : d.nextPage ≤ (d.publish kind t).1.nextPage ∧
    (kind = .bookstack → (d.publish kind t).1.nextPage = d.nextPage + 1) := by
  cases kind with
  | filesystem => exact ⟨Nat.le_refl _, nofun⟩
  | git =>
    rw [publish, writeCommit]
    split_ifs <;> exact ⟨Nat.le_refl _, nofun⟩
  | bookstack => exact ⟨Nat.le_succ _, fun _ ↦ rfl⟩

theorem ref_publish {b : ℕ} (h : (d.publish kind t).2 = .page b) :
    kind = .bookstack ∧ b = d.nextPage := by
  cases kind with
  | filesystem => cases h
  | git =>
    rw [publish, writeCommit] at h
    split_ifs at h
  | bookstack =>
    cases h
    exact ⟨rfl, rfl⟩

end Destination

theorem held_take (w : World) (p : Publication) :
    (w.take p).held = Function.update w.held p.request.key.destinationId
      ((w.held p.request.key.destinationId).publish p.kind p.target).1 ∧
      (w.write p).2 = ((w.held p.request.key.destinationId).publish p.kind p.target).2 := by
  have hwrite : w.write p = (w.held p.request.key.destinationId).publish p.kind p.target := by
    rw [World.write, Destination.update_eq, ite_self]
  rw [World.take, hwrite]
  exact ⟨rfl, rfl⟩

namespace Kept

variable {w w' : World}

variable {destinationId : String} {document : DocumentId} {b i version : ℕ} {p : Publication}
    {page : Page} {x : Option Publication}

theorem ref_lt (h : Kept w) (hhas : (w.held destinationId).Has document version (.page b)) :
    b < (w.held destinationId).nextPage := by
  obtain ⟨page, hpage, rfl, -⟩ := hhas
  exact h.pages destinationId page hpage

theorem count_eq_zero (h : Kept w) {k : PublishKey} (hk : k ∉ w.calls) (kind : PublisherKind) :
    (w.held k.destinationId).count k.document k.version kind = 0 :=
  Nat.eq_zero_of_not_pos fun hpos ↦ hk (h.objects _ _ _ kind hpos)

section Take

variable {p : Publication} (h : Kept w) (hdocument : p.target.document = p.request.key.document)
  (hversion : p.target.version = p.request.key.version) (hk : p.request.key ∉ w.calls)

include h hdocument hversion hk

theorem count_target : (w.held p.request.key.destinationId).count p.target.document
    p.target.version p.kind = 0 := by
  rw [hdocument, hversion]
  exact h.count_eq_zero hk p.kind

theorem count_take (destinationId : String) (document : DocumentId) (version : ℕ)
    (kind : PublisherKind) : ((w.take p).held destinationId).count document version kind =
      (w.held destinationId).count document version kind +
        if kind = p.kind ∧ (⟨document, version, destinationId⟩ : PublishKey) = p.request.key then 1
        else 0 := by
  rw [(held_take w p).1]
  by_cases hd : destinationId = p.request.key.destinationId
  · subst hd
    rw [update_self, Destination.count_publish (h.count_target hdocument hversion hk),
      hdocument, hversion]
    congr 1
    have hiff : ((⟨document, version, p.request.key.destinationId⟩ : PublishKey) =
        p.request.key) ↔ p.request.key.document = document ∧ p.request.key.version = version := by
      obtain ⟨⟨d, v, s⟩, c, r⟩ := p.request
      simp only [PublishKey.mk.injEq, and_true]
      exact and_congr eq_comm eq_comm
    simp only [hiff]
  · rw [update_of_ne hd, if_neg, Nat.add_zero]
    rintro ⟨-, heq⟩
    exact hd (heq ▸ rfl)

theorem has_take {ref : ExternalRef} (hhas : (w.held destinationId).Has document version ref) :
    ((w.take p).held destinationId).Has document version ref := by
  rw [(held_take w p).1]
  by_cases hd : destinationId = p.request.key.destinationId
  · subst hd
    rw [update_self]
    exact hhas.publish (h.count_target hdocument hversion hk)
  · rw [update_of_ne hd]
    exact hhas

theorem has_write : ((w.take p).held p.request.key.destinationId).Has p.request.key.document
    p.request.key.version (w.write p).2 := by
  rw [(held_take w p).1, (held_take w p).2, update_self, ← hdocument, ← hversion]
  exact Destination.has_publish (h.count_target hdocument hversion hk)

end Take

theorem mem_pages_take (hpage : page ∈ ((w.take p).held destinationId).pages) :
    page ∈ (w.held destinationId).pages ∨ page.pageId = (w.held destinationId).nextPage := by
  rw [(held_take w p).1] at hpage
  by_cases hd : destinationId = p.request.key.destinationId
  · subst hd
    rw [update_self] at hpage
    exact (Destination.mem_pages_publish hpage).imp_right And.right
  · rw [update_of_ne hd] at hpage
    exact .inl hpage

theorem lt_nextPage_take (h : Kept w) (hpage : page ∈ ((w.take p).held destinationId).pages) :
    page.pageId < ((w.take p).held destinationId).nextPage := by
  rw [(held_take w p).1] at hpage ⊢
  by_cases hd : destinationId = p.request.key.destinationId
  · subst hd
    rw [update_self] at hpage ⊢
    obtain ⟨hle, hnext⟩ := @Destination.nextPage_publish (w.held p.request.key.destinationId) p.kind
      p.target
    rcases Destination.mem_pages_publish hpage with hold | ⟨hkind, hnew⟩
    · exact Nat.lt_of_lt_of_le (h.pages _ page hold) hle
    · rw [hnew, hnext hkind]
      exact Nat.lt_succ_self _
  · rw [update_of_ne hd] at hpage ⊢
    exact h.pages _ page hpage

theorem replaced_take (h : Kept w) {v : ℕ}
    (hhas : (w.held destinationId).Has document version (.page b)) (hreplaced : ∀ page ∈ (w.held
    destinationId).pages, page.document = document → page.version = v → b ≤ page.pageId) :
    ∀ page ∈ ((w.take p).held destinationId).pages, page.document = document →
      page.version = v → b ≤ page.pageId := by
  intro page hpage hd hv
  rcases mem_pages_take hpage with hold | hnew
  · exact hreplaced page hold hd hv
  · rw [hnew]
    exact Nat.le_of_lt (h.ref_lt hhas)

/-! ## Steps -/

theorem transactions_cases {f : ℕ → Option Publication} {j : ℕ}
    (hp : Function.update f i x j = some p) : (j = i ∧ x = some p) ∨ (j ≠ i ∧ f j = some p) := by
  by_cases hj : j = i
  · rw [hj, update_self] at hp
    exact .inl ⟨hj, hp⟩
  · rw [update_of_ne hj] at hp
    exact .inr ⟨hj, hp⟩

theorem same (h : Kept w) {shelf : Shelf} {destinations : List DestinationRow} :
    Kept { w with shelf := shelf, destinations := destinations } := by
  refine ⟨h.single, h.objects, h.pages, h.replaced, h.once, h.named, h.attempts, h.calls,
    h.recorded, h.published, h.target, fun i p ref hp href ↦ ?_, h.apart⟩
  obtain ⟨hcalled, hnot, hhas, hreplaced⟩ := h.handed i p ref hp href
  exact ⟨hcalled, hnot, hhas, hreplaced⟩

theorem set (h : Kept w) (hi : ∀ p, w.transactions i = some p → p.record = none) (hx : ∀ p, x =
    some p → p.record = none ∧ p.target.document = p.request.key.document ∧ p.target.version =
    p.request.key.version ∧ p.attemptNo = 1) : Kept (w.set i x) := by
  have hcases : ∀ {j p}, (w.set i x).transactions j = some p →
      (j = i ∧ x = some p) ∨ (j ≠ i ∧ w.transactions j = some p) := transactions_cases
  refine ⟨h.single, h.objects, h.pages, h.replaced, h.once, h.named, h.attempts, h.calls, ?_,
    h.published, ?_, ?_, ?_⟩
  · intro k hk
    refine (h.recorded k hk).imp_right ?_
    rintro ⟨j, p, hp, hkey, hrecord⟩
    have hj : j ≠ i := fun hj ↦ hrecord (hi p (hj ▸ hp))
    exact ⟨j, p, (update_of_ne hj ..).trans hp, hkey, hrecord⟩
  · intro j p hp
    rcases hcases hp with ⟨-, hp⟩ | ⟨-, hp⟩
    · exact (hx p hp).2
    · exact h.target j p hp
  · intro j p ref hp href
    rcases hcases hp with ⟨-, hp⟩ | ⟨-, hp⟩
    · rw [(hx p hp).1] at href
      cases href
    · obtain ⟨hcalled, hnot, hhas, hreplaced⟩ := h.handed j p ref hp href
      exact ⟨hcalled, hnot, hhas, hreplaced⟩
  · intro j p j' p' hp hp' hrecord hrecord' hkey
    rcases hcases hp with ⟨-, hp⟩ | ⟨-, hp⟩
    · exact absurd (hx p hp).1 hrecord
    · rcases hcases hp' with ⟨-, hp'⟩ | ⟨-, hp'⟩
      · exact absurd (hx p' hp').1 hrecord'
      · exact h.apart j p j' p' hp hp' hrecord hrecord' hkey

theorem begin (h : Kept w) {c : Context} {q : PublishDocument} (hstep : w.begin i c q = some w') :
    Kept w' := by
  obtain ⟨u, hguard, hstep⟩ := bind_eq_some_iff.1 hstep
  have hfree := (guard_eq_some' u).1 hguard
  obtain ⟨v, hv, hstep⟩ := bind_eq_some_iff.1 hstep
  obtain ⟨-, -, hstep⟩ := bind_eq_some_iff.1 hstep
  obtain ⟨d, hd, hstep⟩ := bind_eq_some_iff.1 hstep
  split at hstep
  · cases hstep
    exact h
  · rename_i hexisting
    obtain ⟨-, -, hstep⟩ := bind_eq_some_iff.1 hstep
    obtain ⟨-, -, hstep⟩ := bind_eq_some_iff.1 hstep
    obtain ⟨built, -, hstep⟩ := bind_eq_some_iff.1 hstep
    cases hstep
    refine h.set (fun p hp ↦ ?_) fun p hp ↦ ?_
    · rw [hfree] at hp
      cases hp
    · cases hp
      refine ⟨rfl, rfl, rfl, ?_⟩
      -- the attempts are those of the rows, and there is none
      have hnone : w.attempts.filter (·.key = q.key) = [] := by
        rw [h.attempts, filter_eq_nil_iff]
        intro a ha
        obtain ⟨p, hp, rfl⟩ := List.mem_map.1 ha
        exact List.find?_eq_none.1 hexisting p hp
      change w.nextAttemptNo q.key = 1
      rw [World.nextAttemptNo, hnone]
      rfl

theorem call (h : Kept w) {i : ℕ} {outcome : World.Outcome}
    (hcareful : Careful w (.call i outcome)) (hstep : w.call i outcome = some w') : Kept w' := by
  rw [World.call] at hstep
  split at hstep
  · rename_i p hp
    obtain ⟨rfl, hk, hcorrection⟩ := hcareful p hp
    split_ifs at hstep with hrecord
    cases hstep
    obtain ⟨hdocument, hversion, hnumber⟩ := h.target i p hp
    have hcount := h.count_take hdocument hversion hk
    have hcases : ∀ {j p'}, (((w.take p).count p).set i
        (some { p with record := (w.write p).2 })).transactions j = some p' →
          (j = i ∧ p' = { p with record := (w.write p).2 }) ∨
            (j ≠ i ∧ w.transactions j = some p') := fun hp' ↦
      (transactions_cases hp').imp_left fun hj ↦ ⟨hj.1, (some.inj hj.2).symm⟩
    -- the version of another call is another one
    have hother : ∀ j p' ref, w.transactions j = some p' → p'.record = some ref →
        p'.request.key ≠ p.request.key := by
      intro j p' ref hp' href heq
      exact hk (heq ▸ (h.handed j p' ref hp' href).called)
    constructor
    · intro destinationId document version kind
      change ((w.take p).held destinationId).count document version kind ≤ 1
      rw [hcount]
      split_ifs with hkey
      · have := h.count_eq_zero hk kind
        rw [← hkey.2] at this
        exact Nat.le_of_eq (by rw [this])
      · exact h.single destinationId document version kind
    · intro destinationId document version kind hpos
      change 0 < ((w.take p).held destinationId).count document version kind at hpos
      change _ ∈ w.calls ++ [p.request.key]
      rw [mem_append, mem_singleton]
      rw [hcount] at hpos
      split_ifs at hpos with hkey
      · exact .inr hkey.2
      · exact .inl (h.objects _ _ _ kind hpos)
    · exact fun destinationId page hpage ↦ h.lt_nextPage_take hpage
    · intro p' hp' v hv b hb
      refine h.replaced_take (hb ▸ h.named p' hp') fun page hpage hd hpv ↦ ?_
      exact h.replaced p' hp' v hv b hb page hpage hd hpv
    · exact h.once
    · exact fun p' hp' ↦ h.has_take hdocument hversion hk (h.named p' hp')
    · exact h.attempts
    · refine nodup_append.2 ⟨h.calls, nodup_singleton _, fun x hx y hy heq ↦ hk ?_⟩
      rw [← mem_singleton.1 hy, ← heq]
      exact hx
    · intro k hmem
      rcases mem_append.1 hmem with hmem | hmem
      · refine (h.recorded k hmem).imp_right ?_
        rintro ⟨j, p', hp', hkey, hrecord'⟩
        have hj : j ≠ i := by
          rintro rfl
          rw [hp] at hp'
          cases hp'
          exact hrecord' hrecord
        exact ⟨j, p', (update_of_ne hj ..).trans hp', hkey, hrecord'⟩
      · exact .inr ⟨i, _, update_self .., (mem_singleton.1 hmem).symm, nofun⟩
    · exact fun p' hp' ↦ mem_append_left _ (h.published p' hp')
    · intro j p' hp'
      rcases hcases hp' with ⟨-, rfl⟩ | ⟨-, hp'⟩
      · exact ⟨hdocument, hversion, hnumber⟩
      · exact h.target j p' hp'
    · intro j p' ref hp' href
      rcases hcases hp' with ⟨-, rfl⟩ | ⟨-, hp'⟩
      · cases href
        refine ⟨mem_append_right _ (mem_singleton_self _), fun hmem ↦ ?_,
          h.has_write hdocument hversion hk, fun v hv b hb page hpage hd hpv ↦ ?_⟩
        · obtain ⟨p', hp', hkey⟩ := List.mem_map.1 hmem
          exact hk (hkey ▸ h.published p' hp')
        · rw [(held_take w p).2] at hb
          obtain ⟨hkind, rfl⟩ := Destination.ref_publish hb
          rcases mem_pages_take hpage with hold | hnew
          · exact absurd hpv (hcorrection hkind v hv page hold hd)
          · exact Nat.le_of_eq hnew.symm
      · obtain ⟨hcalled, hnot, hhas, hreplaced⟩ := h.handed j p' ref hp' href
        refine ⟨mem_append_left _ hcalled, hnot, h.has_take hdocument hversion hk hhas,
          fun v hv b hb ↦ ?_⟩
        exact h.replaced_take (hb ▸ hhas) (hreplaced v hv b hb)
    · intro j p' j' p'' hp' hp'' hrecord' hrecord'' hkey
      obtain ⟨ref', href'⟩ := ne_none_iff_exists'.1 hrecord'
      obtain ⟨ref'', href''⟩ := ne_none_iff_exists'.1 hrecord''
      rcases hcases hp' with ⟨hj, rfl⟩ | ⟨-, hp'⟩ <;>
        rcases hcases hp'' with ⟨hj', rfl⟩ | ⟨-, hp''⟩
      · exact hj.trans hj'.symm
      · exact absurd hkey.symm (hother j' p'' ref'' hp'' href'')
      · exact absurd hkey (hother j p' ref' hp' href')
      · exact h.apart j p' j' p'' hp' hp'' hrecord' hrecord'' hkey
  · cases hstep

theorem commit (h : Kept w) {now : Time} (hstep : w.commit i now = some w') : Kept w' := by
  obtain ⟨p, hp, hstep⟩ := bind_eq_some_iff.1 hstep
  obtain ⟨ref, href, hstep⟩ := bind_eq_some_iff.1 hstep
  obtain ⟨events, -, hstep⟩ := bind_eq_some_iff.1 hstep
  obtain ⟨-, -, hstep⟩ := bind_eq_some_iff.1 hstep
  obtain ⟨-, -, hstep⟩ := bind_eq_some_iff.1 hstep
  cases hstep
  obtain ⟨hcalled, hnot, hhas, hreplaced⟩ := h.handed i p ref hp href
  have hsome : p.record ≠ none := by
    rw [href]
    exact nofun
  have hcases : ∀ {j p'}, ((w.record p ref events now).set i none).transactions j = some p' →
      j ≠ i ∧ w.transactions j = some p' := fun hp' ↦
    (transactions_cases hp').resolve_left fun hj ↦ nomatch hj.2
  have hkeys : (w.published ++ [publishedRow p ref now]).map PublishedRow.key =
      w.published.map PublishedRow.key ++ [p.request.key] := by
    rw [map_append, map_singleton]
    rfl
  have hrows : ∀ {P : PublishedRow → Prop}, (∀ r ∈ w.published, P r) →
      P (publishedRow p ref now) → ∀ r ∈ w.published ++ [publishedRow p ref now], P r := by
    intro P hold hnew r hr
    rcases mem_append.1 hr with hr | hr
    · exact hold r hr
    · exact mem_singleton.1 hr ▸ hnew
  refine ⟨h.single, h.objects, h.pages, hrows h.replaced hreplaced, ?_, hrows h.named hhas, ?_,
    h.calls, ?_, hrows h.published hcalled, ?_, ?_, ?_⟩
  · change ((w.published ++ [publishedRow p ref now]).map PublishedRow.key).Nodup
    rw [hkeys]
    refine nodup_append.2 ⟨h.once, nodup_singleton _, fun x hx y hy heq ↦ hnot ?_⟩
    rw [← mem_singleton.1 hy, ← heq]
    exact hx
  · change w.attempts ++ [_] = (w.published ++ [_]).map _
    rw [h.attempts, map_append, map_singleton, (h.target i p hp).2.2]
    rfl
  · intro k hk
    change k ∈ (w.published ++ [publishedRow p ref now]).map PublishedRow.key ∨ _
    rw [hkeys, mem_append, mem_singleton]
    rcases h.recorded k hk with hrow | ⟨j, p', hp', hkey, hrecord⟩
    · exact .inl (.inl hrow)
    · by_cases hj : j = i
      · rw [hj, hp] at hp'
        cases hp'
        exact .inl (.inr hkey.symm)
      · exact .inr ⟨j, p', (update_of_ne hj ..).trans hp', hkey, hrecord⟩
  · exact fun j p' hp' ↦ h.target j p' (hcases hp').2
  · intro j p' ref' hp' href'
    obtain ⟨hj, hp'⟩ := hcases hp'
    obtain ⟨hcalled', hnot', hhas', hreplaced'⟩ := h.handed j p' ref' hp' href'
    refine ⟨hcalled', ?_, hhas', hreplaced'⟩
    change p'.request.key ∉ (w.published ++ [publishedRow p ref now]).map PublishedRow.key
    rw [hkeys, mem_append, mem_singleton]
    rintro (hmem | hkey)
    · exact hnot' hmem
    · exact hj (h.apart j p' i p hp' hp (by rw [href']; exact nofun) hsome hkey)
  · intro j p' j' p'' hp' hp''
    exact h.apart j p' j' p'' (hcases hp').2 (hcases hp'').2

theorem step (h : Kept w) {l : Label} (hcareful : Careful w l) (hstep : w.step l = some w') :
    Kept w' := by
  cases l with
  | draft | finalize | review =>
    obtain ⟨s, -, rfl⟩ := map_eq_some_iff.1 hstep
    exact h.same
  | register =>
    rw [World.step, World.register] at hstep
    split_ifs at hstep
    cases hstep
    exact h.same
  | begin => exact h.begin hstep
  | call => exact h.call hcareful hstep
  | commit => exact h.commit hstep
  | rollback =>
    obtain ⟨p, hp, rfl⟩ := map_eq_some_iff.1 hstep
    refine h.set (fun p' hp' ↦ ?_) fun _ hx ↦ (nomatch hx)
    exact hcareful p' hp'

theorem run (h : Kept w) {ls : List Label} (hrun : Run Careful w ls w') : Kept w' := by
  induction hrun with
  | nil => exact h
  | cons hstep hcareful _ ih => exact ih (h.step hcareful hstep)

theorem start (home : DocumentId → String) : Kept (start home) where
  single := fun _ _ _ kind ↦ by cases kind <;> exact Nat.zero_le 1
  objects := fun _ _ _ kind hpos ↦ by cases kind <;> cases hpos
  pages := fun _ ↦ forall_mem_nil _
  replaced := forall_mem_nil _
  once := nodup_nil
  named := forall_mem_nil _
  attempts := rfl
  calls := nodup_nil
  recorded := forall_mem_nil _
  published := forall_mem_nil _
  target := fun _ _ hp ↦ (nomatch hp)
  handed := fun _ _ _ hp ↦ (nomatch hp)
  apart := fun _ _ _ _ hp ↦ (nomatch hp)

theorem countP_attempts (h : Kept w) (k : PublishKey) :
    w.attempts.countP (·.key = k) = (w.published.map PublishedRow.key).count k := by
  rw [h.attempts, countP_map, List.count, countP_map]
  refine countP_congr fun p _ ↦ ?_
  simp

theorem toRecorded (h : Kept w) : Recorded w where
  single := h.single
  replaced := h.replaced
  once := h.once
  named := h.named
  numbered := by
    intro k
    refine ⟨w.attempts.countP (·.key = k), ?_⟩
    -- a version has one attempt at most
    have hle : w.attempts.countP (·.key = k) ≤ 1 := by
      rw [h.countP_attempts]
      exact nodup_iff_count_le_one.1 h.once k
    rw [countP_eq_length_filter] at hle ⊢
    have hone : ∀ a ∈ w.attempts.filter (·.key = k), a.attemptNo = 1 := by
      intro a ha
      have ha := (mem_filter.1 ha).1
      rw [h.attempts] at ha
      obtain ⟨p, -, rfl⟩ := List.mem_map.1 ha
      rfl
    generalize w.attempts.filter (·.key = k) = rows at hle hone ⊢
    match rows with
    | [] => rfl
    | [a] =>
      rw [map_singleton, hone a (mem_singleton_self a)]
      rfl
    | a :: a' :: rest => exact absurd hle (by simp)
  attempts := by
    intro k hidle
    rw [h.countP_attempts]
    by_cases hk : k ∈ w.calls
    · have hrow : k ∈ w.published.map PublishedRow.key := by
        rcases h.recorded k hk with hrow | ⟨i, p, hp, hkey, hrecord⟩
        · exact hrow
        · exact absurd (hidle i p hp hkey) hrecord
      rw [count_eq_one_of_mem h.calls hk, count_eq_one_of_mem h.once hrow]
    · have hrow : k ∉ w.published.map PublishedRow.key := by
        intro hmem
        obtain ⟨p, hp, rfl⟩ := List.mem_map.1 hmem
        exact hk (h.published p hp)
      rw [count_eq_zero_of_not_mem hk, count_eq_zero_of_not_mem hrow]

end Kept

namespace Share

def home : DocumentId → String := fun _ ↦ "workspace"

def report : DocumentId := ⟨.task, "task-1"⟩

/-- The version that follows a verdict. -/
def passed (verificationId : String) : Finalization where
  taskId := "task-1"
  accountId := "verifier"
  idempotencyKey := verificationId
  verificationId := verificationId
  revision := 1
  result := .passed
  skeleton := fun _ ↦ ⟨"# " ++ verificationId, "manifest"⟩
  freezeSeq := 20

def owner (key : String) : Context := ⟨"workspace", "owner", key⟩

def approved : List Label :=
  [.finalize (passed "ver-1") .commit, .finalize (passed "ver-2") .commit,
    .register ⟨"wiki", "workspace", .bookstack, true⟩,
    .register ⟨"share", "workspace", .filesystem, true⟩,
    .review (owner "r1") ⟨"rev-1", report, 1, .approved, "good"⟩ 0,
    .review (owner "r2") ⟨"rev-2", report, 2, .approved, "good"⟩ 1]

/-- Publications at both destinations at once, and the repetition of one. -/
def careful : List Label :=
  approved ++ [.begin 0 (owner "p1") ⟨⟨report, 1, "wiki"⟩, none, none⟩,
    .begin 1 (owner "p2") ⟨⟨report, 1, "share"⟩, none, none⟩, .call 0 .accepted,
    .call 1 .accepted, .commit 1 2, .commit 0 3,
    .begin 0 (owner "p3") ⟨⟨report, 1, "wiki"⟩, none, none⟩]

/-- The wiki takes the page and the answer is lost, so the publication is repeated. -/
def lost : List Label :=
  approved ++ [.begin 0 (owner "p1") ⟨⟨report, 1, "wiki"⟩, none, none⟩, .call 0 .lost,
    .begin 0 (owner "p2") ⟨⟨report, 1, "wiki"⟩, none, none⟩, .call 0 .accepted, .commit 0 2]

/-- The second version is a correction of the first. -/
def corrected : List Label :=
  approved ++ [.begin 0 (owner "p1") ⟨⟨report, 1, "wiki"⟩, none, none⟩, .call 0 .accepted,
    .commit 0 2, .begin 0 (owner "p2") ⟨⟨report, 2, "wiki"⟩, some 1, some "a wrong figure"⟩,
    .call 0 .accepted, .commit 0 3]

end Share

end AgentColab.Documents
