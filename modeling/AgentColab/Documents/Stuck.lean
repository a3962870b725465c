import AgentColab.Documents.Stored

/-!
# When a document takes another version

A new version has the next number of its document, and its Event is expected to get that number. The
Events of the document are also those of its reviews and publications, so the expectation is met as
long as there is none of these. The files of the new version must not be there.
-/

namespace AgentColab.Documents

open List

namespace Shelf

/-- No Event of the document is about a review or a publication. -/
def Silent (s : Shelf) (d : DocumentId) : Prop :=
  ∀ x ∈ s.events, x.2.document = d → x.2.recorded ≠ none

/-- The document takes another version: it has Events of versions only, and no file is there under
the next number. -/
def Clear (s : Shelf) (d : DocumentId) : Prop :=
  s.Silent d ∧ ¬s.files.Exists (s.fileKey d (s.nextVersion d))

def Fresh (s : Shelf) (idempotencyKey : String) : Prop :=
  ∀ x ∈ s.events, x.1.idempotencyKey ≠ idempotencyKey

end Shelf

theorem countP_document (events : List (EventKey × DocumentEvent)) (d : DocumentId) :
    events.countP (fun x ↦ x.2.document = d) = events.countP (Versioned d ·) +
      events.countP (fun x ↦ x.2.document = d ∧ x.2.recorded = none) := by
  induction events with
  | nil => rfl
  | cons x _ ih =>
    rw [countP_cons, countP_cons, countP_cons, ih]
    by_cases hd : x.2.document = d
    · by_cases hr : x.2.recorded = none
      · simp [Versioned, hd, hr]
        omega
      · simp [Versioned, hd, hr]
        omega
    · simp [Versioned, hd]

variable {s : Shelf} {x : Write} {q : Draft} {w : World}

theorem Sound.nextVersion_eq_seq_iff (h : Sound s) (d : DocumentId) :
    s.nextVersion d = s.seq (s.home d) d + 1 ↔ s.Silent d := by
  have hseq : s.seq (s.home d) d = s.events.countP (fun x ↦ x.2.document = d) := by
    rw [Shelf.seq, ← countP_eq_length_filter]
    refine countP_congr fun x hx ↦ ?_
    rw [decide_eq_true_eq, decide_eq_true_eq]
    refine and_iff_right_of_imp fun hd ↦ ?_
    rw [h.home x hx, hd]
  rw [hseq, countP_document, h.recorded, h.counted]
  constructor
  · intro heq x hx hd hnone
    have hzero : s.events.countP (fun x ↦ x.2.document = d ∧ x.2.recorded = none) = 0 := by omega
    exact countP_eq_zero.1 hzero x hx (decide_eq_true ⟨hd, hnone⟩)
  · intro hsilent
    have hzero : s.events.countP (fun x ↦ x.2.document = d ∧ x.2.recorded = none) = 0 :=
      countP_eq_zero.2 fun x hx htrue ↦
        hsilent x hx (of_decide_eq_true htrue).1 (of_decide_eq_true htrue).2
    omega

theorem Sound.prepare_isSome_iff (h : Sound s) (hx : Shelf.Formed s x)
    (hfresh : s.Fresh x.row.eventId.idempotencyKey) :
    (s.prepare x).isSome ↔ s.Clear x.row.document := by
  have hlookup : s.events.lookup x.row.eventId = none := by
    rw [lookup_eq_none_iff]
    intro y hy
    simpa using fun heq : x.row.eventId = y.1 ↦ hfresh y hy (heq ▸ rfl)
  have happend : s.append x.row.eventId x.event (some x.row.version) =
      if x.row.version = s.seq (s.home x.row.document) x.row.document + 1 then
        some [(x.row.eventId, x.event)] else none := by
    rw [Shelf.append, hlookup, hx.document, hx.workspace]
    simp only [Option.all_some, decide_eq_true_eq]
  have hiff := h.nextVersion_eq_seq_iff x.row.document
  rw [← hx.version] at hiff
  rw [Shelf.Clear, ← hx.version, ← hiff]
  constructor
  · intro hsome
    obtain ⟨⟨y, events⟩, hy⟩ := Option.isSome_iff_exists.1 hsome
    obtain ⟨-, happend', hfiles⟩ := Shelf.prepare_eq hy
    rw [happend'] at happend
    split_ifs at happend with hseq
    exact ⟨hseq, hfiles⟩
  · rintro ⟨hseq, hfiles⟩
    rw [if_pos hseq] at happend
    rw [Shelf.prepare, happend]
    simp [guard, hfiles]

/-! ## What is promised -/

/-- A step of the lifecycle stores the next version of a document. -/
def Stores (w w' : World) (d : DocumentId) : Prop :=
  ∃ v, w'.shelf.versions = w.shelf.versions ++ [v] ∧ v.document = d ∧
    v.version = w.shelf.versions.countP (·.document = d) + 1 ∧ Agree w'.shelf v

/-- Whenever the sources give another version, or a verdict has none, the next request stores it. -/
structure Unstuck (w : World) (d : DocumentId) : Prop where
  draft : ∀ q : Draft, q.document = d → w.shelf.Fresh q.idempotencyKey → ¬w.shelf.Unchanged q →
    ∃ w', w.step (.draft q .commit) = some w' ∧ Stores w w' d
  finalize : ∀ q : Finalization, q.document = d → w.shelf.Fresh q.idempotencyKey →
    1 ≤ q.revision → ¬w.shelf.Settled q →
      ∃ w', w.step (.finalize q .commit) = some w' ∧ Stores w w' d

/-! ## When it is kept -/

theorem Shelf.Fresh.not_replays {key : String} (h : s.Fresh key) (d : DocumentId) (scope : Scope) :
    ¬s.Replays d scope key := by
  rintro ⟨x, hx, -, -, -, heq⟩
  exact h x hx heq

theorem draft_of_changed (hfresh : s.Fresh q.idempotencyKey) (hchanged : ¬s.Unchanged q) :
    s.draft q = (s.prepare (s.draftWrite q)).map some := by
  rw [Shelf.draft, if_neg fun h ↦ hfresh.not_replays _ _ h.2, if_neg hchanged]

theorem finalize_of_unsettled {q : Finalization} (hfresh : s.Fresh q.idempotencyKey)
    (hrevision : 1 ≤ q.revision) (hsettled : ¬s.Settled q) :
    s.finalize q = (s.prepare (s.finalizeWrite q)).map some := by
  rw [Shelf.finalize, if_neg (Nat.not_lt.2 hrevision), if_neg hsettled,
    if_neg (hfresh.not_replays _ _)]

theorem Inv.stores {w' : World} (h : Inv w) {events : List (EventKey × DocumentEvent)}
    (hx : Shelf.Formed w.shelf x) (hw' : w' = { w with shelf := w.shelf.persist x events })
    (h' : Inv w') : Stores w w' x.row.document := by
  subst hw'
  refine ⟨x.row, rfl, rfl, ?_, ?_⟩
  · rw [hx.version, h.sound.counted]
  · exact h'.sound.agree x.row (mem_append_right _ (mem_singleton_self _))

theorem exists_fresh (s : Shelf) : ∃ key, s.Fresh key := by
  have : Infinite String := Infinite.of_injective (fun n : ℕ ↦ toString n) fun _ _ heq ↦
    toString_nat_injective heq
  obtain ⟨key, hkey⟩ := Infinite.exists_notMem_finset
    (s.events.map fun x ↦ x.1.idempotencyKey).toFinset
  refine ⟨key, fun x hx heq ↦ hkey ?_⟩
  rw [List.mem_toFinset, List.mem_map]
  exact ⟨x, hx, heq⟩

theorem exists_sha256_ne (sha : String) : ∃ b : BuiltDocument, b.sha256 ≠ sha := by
  have hne : (⟨"a", ""⟩ : BuiltDocument).sha256 ≠ (⟨"b", ""⟩ : BuiltDocument).sha256 := by
    decide +kernel
  by_cases ha : (⟨"a", ""⟩ : BuiltDocument).sha256 = sha
  · exact ⟨⟨"b", ""⟩, fun hb ↦ hne (ha.trans hb.symm)⟩
  · exact ⟨⟨"a", ""⟩, ha⟩

theorem exists_changed (s : Shelf) (d : DocumentId) (key : String) :
    ∃ q : Draft, q.document = d ∧ q.idempotencyKey = key ∧ ¬s.Unchanged q := by
  cases hlatest : s.latest d with
  | none =>
    refine ⟨⟨d, "", key, fun _ _ ↦ ⟨"", ""⟩, none, 0⟩, rfl, rfl, ?_⟩
    rintro ⟨v, hv, -⟩
    rw [hlatest] at hv
    cases hv
  | some v =>
    obtain ⟨b, hb⟩ := exists_sha256_ne v.sha256
    refine ⟨⟨d, "", key, fun _ _ ↦ b, none, 0⟩, rfl, rfl, ?_⟩
    rintro ⟨v', hv', -, heq⟩
    rw [hlatest] at hv'
    cases hv'
    exact hb heq

theorem Inv.unstuck_iff (h : Inv w) (d : DocumentId) : Unstuck w d ↔ w.shelf.Clear d := by
  constructor
  · intro hunstuck
    obtain ⟨key, hkey⟩ := exists_fresh w.shelf
    obtain ⟨q, rfl, rfl, hchanged⟩ := exists_changed w.shelf d key
    obtain ⟨w', hstep, -⟩ := hunstuck.draft q rfl hkey hchanged
    rw [World.step, draft_of_changed hkey hchanged] at hstep
    refine (h.sound.prepare_isSome_iff (Shelf.formed_draftWrite q) hkey).1 ?_
    by_contra hnone
    rw [Option.not_isSome_iff_eq_none.1 hnone] at hstep
    cases hstep
  · intro hclear
    constructor
    · rintro q rfl hkey hchanged
      have hformed := Shelf.formed_draftWrite (s := w.shelf) q
      have hsome := (h.sound.prepare_isSome_iff hformed hkey).2 hclear
      obtain ⟨⟨x, events⟩, hprepare⟩ := Option.isSome_iff_exists.1 hsome
      obtain ⟨rfl, -⟩ := Shelf.prepare_eq hprepare
      have hstep : w.step (.draft q .commit) =
          some { w with shelf := w.shelf.persist (w.shelf.draftWrite q) events } := by
        rw [World.step, draft_of_changed hkey hchanged, hprepare]
        rfl
      exact ⟨_, hstep, h.stores hformed rfl (h.step hstep)⟩
    · rintro q rfl hkey hrevision hsettled
      have hformed := Shelf.formed_finalizeWrite (s := w.shelf) q
      have hsome := (h.sound.prepare_isSome_iff hformed hkey).2 hclear
      obtain ⟨⟨x, events⟩, hprepare⟩ := Option.isSome_iff_exists.1 hsome
      obtain ⟨rfl, -⟩ := Shelf.prepare_eq hprepare
      have hstep : w.step (.finalize q .commit) =
          some { w with shelf := w.shelf.persist (w.shelf.finalizeWrite q) events } := by
        rw [World.step, finalize_of_unsettled hkey hrevision hsettled, hprepare]
        rfl
      exact ⟨_, hstep, h.stores hformed rfl (h.step hstep)⟩

/-- In every run rows, Events and files agree, and a document is not stuck exactly when it has
Events of versions only and no file of the next version is there. -/
theorem documents_unstuck_iff {home : DocumentId → String} {w : World} {ls : List Label}
    (hrun : Run (fun _ _ ↦ True) (World.start home) ls w) :
    (∀ v ∈ w.shelf.versions, Agree w.shelf v) ∧
      ∀ d, Unstuck w d ↔ w.shelf.Silent d ∧
        ¬w.shelf.files.Exists (w.shelf.fileKey d (w.shelf.nextVersion d)) := by
  have h := hrun.inv (.start home)
  exact ⟨h.sound.agree, h.unstuck_iff⟩

/-! ## Runs on one document -/

namespace Sample

def home : DocumentId → String := fun _ ↦ "workspace"

def document : DocumentId := ⟨.task, "task-1"⟩

/-- A draft of sources that are the same under every number. -/
def draftOf (key text : String) : Draft where
  document := document
  accountId := "agent"
  idempotencyKey := key
  skeleton := fun _ _ ↦ ⟨text, "manifest"⟩
  prose := none
  freezeSeq := 10

def passed : Finalization where
  taskId := "task-1"
  accountId := "verifier"
  idempotencyKey := "k2"
  verificationId := "ver-1"
  revision := 1
  result := .passed
  skeleton := fun _ ↦ ⟨"# Final", "manifest"⟩
  freezeSeq := 20

def finalized : List Label := [.draft (draftOf "k1" "# Draft") .commit, .finalize passed .commit]

def reviewed : List Label :=
  finalized ++ [.review ⟨"workspace", "owner", "k3"⟩ ⟨"rev-1", document, 2, .approved, "good"⟩ 0]

def abandoned : List Label := [.draft (draftOf "k1" "# Draft") .rollbackBoth]

end Sample

open Sample

theorem documents_unstuck_finalized :
    ∃ w, Run (fun _ _ ↦ True) (World.start home) finalized w ∧
      w.shelf.versions.map VersionRow.version = [1, 2] ∧
        (∀ v ∈ w.shelf.versions, Agree w.shelf v) ∧ ∀ d, Unstuck w d ↔ w.shelf.Silent d ∧
          ¬w.shelf.files.Exists (w.shelf.fileKey d (w.shelf.nextVersion d)) := by
  have hrun : (((World.start home).runLabels (fun _ _ ↦ True) finalized).any fun w ↦
      w.shelf.versions.map VersionRow.version = [1, 2]) = true := by decide
  obtain ⟨w, hw, hfacts⟩ := (Option.any_eq_true _ _).1 hrun
  have h := World.run_of_runLabels hw
  exact ⟨w, h, of_decide_eq_true hfacts, documents_unstuck_iff h⟩

theorem not_unstuck {labels : List Label}
    (hrun : (((World.start home).runLabels (fun _ _ ↦ True) labels).any fun w ↦
      (∀ x ∈ w.shelf.events, x.1.idempotencyKey ≠ q.idempotencyKey) ∧ ¬w.shelf.Unchanged q ∧
        (w.step (.draft q .commit)).isSome = false) = true) :
    ∃ w, Run (fun _ _ ↦ True) (World.start home) labels w ∧ ¬Unstuck w q.document := by
  obtain ⟨w, hw, hfacts⟩ := (Option.any_eq_true _ _).1 hrun
  obtain ⟨hfresh, hchanged, hstep⟩ := of_decide_eq_true hfacts
  refine ⟨w, World.run_of_runLabels hw, fun h ↦ ?_⟩
  obtain ⟨w', hw', -⟩ := h.draft q rfl hfresh hchanged
  rw [hw'] at hstep
  cases hstep

/-- After a review the document takes no other version, and so it is after a transaction that has
left its files. -/
theorem documents_stuck :
    (∃ w, Run (fun _ _ ↦ True) (World.start home) reviewed w ∧
      ¬Unstuck w Sample.document) ∧
    ∃ w, Run (fun _ _ ↦ True) (World.start home) abandoned w ∧
      ¬Unstuck w Sample.document := by
  constructor
  · exact @not_unstuck (draftOf "k4" "# Reopened") reviewed (by decide)
  · exact @not_unstuck (draftOf "k2" "# Draft") abandoned (by decide)

end AgentColab.Documents
