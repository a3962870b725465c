import AgentColab.Events.Hashing
import AgentColab.Events.Decoding

/-!
# Which hashes survive storage

`jsonb` gives a float back as an integer as soon as its text has no fractional part. From `10 ^ 21`
on ECMAScript writes an exponent, which no integer has. So the values whose canonical bytes survive
the column are exactly those whose floats are all below `10 ^ 21`.
-/

namespace AgentColab

open Json (canon stored)

/-! ## Numbers -/

theorem exponent_not_mem_intText (n : ℤ) : 'e' ∉ intText n := by
  have hdigits : ∀ k, 'e' ∉ Nat.toDigits 10 k := fun k hk ↦
    absurd (Nat.isDigit_of_mem_toDigits (by decide) (by decide) hk) (by decide)
  rw [intText]
  split_ifs
  · intro h
    rcases List.mem_cons.1 h with h | h
    · exact absurd h (by decide)
    · exact hdigits _ h
  · exact hdigits _

variable {d : Decimal} {v : Json}

theorem exponent_mem_es6Number (h : 21 < d.point) : 'e' ∈ es6Number (.num d) := by
  rw [es6Number]
  dsimp only
  rw [if_neg (by omega), if_neg (by omega), if_neg (by omega)]
  split_ifs <;> simp

theorem intText_toInt_iff (hint : d.digits.length ≤ d.point) :
    intText d.toInt = es6Number (.num d) ↔ d.point ≤ 21 := by
  refine ⟨fun h ↦ not_lt.1 fun hlt ↦ ?_, intText_toInt hint⟩
  exact exponent_not_mem_intText d.toInt (h ▸ exponent_mem_es6Number hlt)

theorem isSmall_of_canon_stored_float {f : PyFloat} (h : f.stored.canon = (Json.float f).canon) :
    f.isSmall = true := by
  cases f with
  | nan | inf | zero => rfl
  | num d =>
    refine decide_eq_true (not_lt.1 fun hlt ↦ ?_)
    rw [PyFloat.stored, if_pos (by omega), canon, canon] at h
    exact exponent_not_mem_intText d.toInt (Canon.num.inj h ▸ exponent_mem_es6Number hlt)

/-! ## Values -/

theorem storedItems_eq_map (xs : List Json) : storedItems xs = xs.map stored := by
  induction xs with
  | nil => rfl
  | cons x _ ih => rw [storedItems, ih, List.map_cons]

theorem canon_of_stored_obj {ms : List (String × Json)} (hnd : (ms.map Prod.fst).Nodup)
    (h : (Json.obj ms).stored.canon = (Json.obj ms).canon) :
    ms.map (fun m ↦ m.2.stored.canon) = ms.map fun m ↦ m.2.canon := by
  have hkeys : ((ms.map fun m ↦ (m.1, m.2.stored.canon)).map Prod.fst) = ms.map Prod.fst := by
    rw [List.map_map]
    rfl
  have hkeys' : ((ms.map fun m ↦ (m.1, m.2.canon)).map Prod.fst) = ms.map Prod.fst := by
    rw [List.map_map]
    rfl
  have hperm : (((storedMembers ms).insertionSort fun a b ↦ jsonbLe a.1 b.1).map
      fun m ↦ (m.1, m.2.canon)).Perm (ms.map fun m ↦ (m.1, m.2.stored.canon)) := by
    refine ((List.perm_insertionSort _ _).map _).trans ?_
    rw [storedMembers_eq_map, List.map_map]
    rfl
  rw [stored, canon, canon, canonMembers_eq_map, canonMembers_eq_map] at h
  have hsorted := Canon.obj.inj h
  rw [sortKeys_perm hperm ((hperm.map Prod.fst).nodup_iff.2 (by rwa [hkeys]))] at hsorted
  have heq := eq_of_sortKeys (hkeys.trans hkeys'.symm) (by rwa [hkeys]) hsorted
  have hvalues := congrArg (List.map Prod.snd) heq
  rw [List.map_map, List.map_map] at hvalues
  exact hvalues

mutual

/-- **What survives is small**: a dict whose stored form has its canonical form has only floats
below `10 ^ 21`. -/
theorem isSmall_of_canon_stored : ∀ v : Json, v.isDict = true → v.stored.canon = v.canon →
    v.isSmall = true
  | .null, _, _ => rfl
  | .bool _, _, _ => rfl
  | .int _, _, _ => rfl
  | .str _, _, _ => rfl
  | .float _, _, h => isSmall_of_canon_stored_float h
  | .arr xs, hd, h => by
    rw [stored, canon, canon, canonItems_eq_map, canonItems_eq_map,
      storedItems_eq_map, List.map_map] at h
    exact allItems_isSmall_of_canon_stored xs hd (Canon.arr.inj h)
  | .obj ms, hd, h => by
    have hd' : (ms.map Prod.fst).Nodup ∧
        allMembers (fun _ ↦ true) (fun ks ↦ decide ks.Nodup) ms = true := by
      simpa [Json.isDict, Json.All] using hd
    have hms := allMembers_isSmall_of_canon_stored ms hd'.2 (canon_of_stored_obj hd'.1 h)
    simpa [Json.isSmall, Json.All] using hms

theorem allItems_isSmall_of_canon_stored : ∀ xs : List Json,
    allItems (fun _ ↦ true) (fun ks ↦ decide ks.Nodup) xs = true →
    xs.map (canon ∘ stored) = xs.map canon → allItems PyFloat.isSmall (fun _ ↦ true) xs = true
  | [], _, _ => rfl
  | x :: xs, hd, h => by
    rw [allItems, Bool.and_eq_true] at hd
    obtain ⟨hx, hxs⟩ := List.cons.inj h
    rw [allItems, Bool.and_eq_true]
    exact ⟨isSmall_of_canon_stored x hd.1 hx, allItems_isSmall_of_canon_stored xs hd.2 hxs⟩

theorem allMembers_isSmall_of_canon_stored : ∀ ms : List (String × Json),
    allMembers (fun _ ↦ true) (fun ks ↦ decide ks.Nodup) ms = true →
    ms.map (fun m ↦ m.2.stored.canon) = ms.map (fun m ↦ m.2.canon) →
    allMembers PyFloat.isSmall (fun _ ↦ true) ms = true
  | [], _, _ => rfl
  | (k, v) :: ms, hd, h => by
    rw [allMembers, Bool.and_eq_true] at hd
    obtain ⟨hv, hms⟩ := List.cons.inj h
    rw [allMembers, Bool.and_eq_true]
    exact ⟨isSmall_of_canon_stored v hd.1 hv, allMembers_isSmall_of_canon_stored ms hd.2 hms⟩

end

theorem canonicalJson_of_isFinite (h : v.isFinite = true) :
    canonicalJson v = .ok (v.text.flatMap String.utf8EncodeChar) := by
  rw [canonicalJson, if_pos h]

theorem canon_payload_of_hashBody {sha256 : Digest} {event event' : Event}
    (h : (hashBody sha256 event).canon = (hashBody sha256 event').canon) :
    event.payload.canon = event'.payload.canon := by
  rw [hashBody, hashBody, canon, canon] at h
  have hmembers := eq_of_sortKeys (by rfl) (by simp [canonMembers]) (Canon.obj.inj h)
  simp only [canonMembers, List.cons.injEq, Prod.mk.injEq, true_and] at hmembers
  tauto

/-- A value and what the column gives back for it have the same canonical bytes exactly when all
its floats are below `10 ^ 21`. -/
theorem canonicalJson_stored (hdict : v.isDict = true) (hfin : v.isFinite = true) :
    canonicalJson v.stored = canonicalJson v ↔ v.isSmall = true := by
  constructor
  · intro h
    have hbytes := canonicalJson_of_isFinite hfin
    exact isSmall_of_canon_stored v hdict (canon_of_canonicalJson (h.trans hbytes) hbytes)
  · intro h
    rw [canonicalJson_of_isFinite hfin, canonicalJson_of_isFinite (isFinite_stored v hfin),
      text_stored v h hdict]

/-- An Event that is read back has the hash body it was appended with exactly when all floats of
its payload are below `10 ^ 21`. -/
theorem canonicalJson_hashBody_stored (sha256 : Digest) {event : Event}
    (hdict : event.payload.isDict = true) (hfin : event.payload.isFinite = true) :
    canonicalJson (hashBody sha256 { event with payload := event.payload.stored }) =
      canonicalJson (hashBody sha256 event) ↔ event.payload.isSmall = true := by
  have hbody : (hashBody sha256 event).isFinite = true := by rwa [isFinite_hashBody]
  have hbody' :
      (hashBody sha256 { event with payload := event.payload.stored }).isFinite = true := by
    rw [isFinite_hashBody]
    exact isFinite_stored _ hfin
  constructor
  · intro h
    have hbytes := canonicalJson_of_isFinite hbody
    exact isSmall_of_canon_stored _ hdict
      (canon_payload_of_hashBody (canon_of_canonicalJson (h.trans hbytes) hbytes))
  · intro h
    rw [canonicalJson_of_isFinite hbody, canonicalJson_of_isFinite hbody']
    simp only [hashBody, Json.text, memberTexts, text_stored _ h hdict]

theorem canonicalJson_toInt (hint : d.digits.length ≤ d.point) :
    canonicalJson (.int d.toInt) = canonicalJson (.float (.num d)) ↔ d.point ≤ 21 := by
  rw [← intText_toInt_iff hint]
  constructor
  · intro h
    have hbytes : canonicalJson (.float (.num d)) = .ok _ := canonicalJson_of_isFinite rfl
    exact Canon.num.inj (canon_of_canonicalJson (h.trans hbytes) hbytes)
  · intro h
    rw [canonicalJson_of_isFinite rfl, canonicalJson_of_isFinite rfl, Json.text, Json.text, h]

/-- **Which hashes survive storage**: exactly those of payloads whose floats are all below `10 ^
21`. -/
theorem canonicalJson_stored_iff (sha256 : Digest) (event : Event) (d : Decimal)
    (hdict : event.payload.isDict = true) (hfin : event.payload.isFinite = true)
    (hint : d.digits.length ≤ d.point) :
    (canonicalJson event.payload.stored = canonicalJson event.payload ↔
      event.payload.isSmall = true) ∧
    (canonicalJson (hashBody sha256 { event with payload := event.payload.stored }) =
      canonicalJson (hashBody sha256 event) ↔ event.payload.isSmall = true) ∧
    (canonicalJson (.int d.toInt) = canonicalJson (.float (.num d)) ↔ d.point ≤ 21) :=
  ⟨canonicalJson_stored hdict hfin, canonicalJson_hashBody_stored sha256 hdict hfin,
    canonicalJson_toInt hint⟩

/-! ## The first float that is not given back -/

namespace Stored.Sample

/-- `1e21` -/
def sextillion : Decimal where
  neg := false
  digits := [1]
  point := 22
  digits_lt := by decide
  head_ne := by decide
  length_pos := by decide
  length_le := by decide

/-- `{"x": 1e21}` -/
def payload : Json := .obj [("x", .float (.num sextillion))]

def event (payload : Json) : Event where
  eventId := "e-1"
  schemaVersion := 1
  workspaceId := "w-1"
  aggregateType := "Task"
  aggregateId := "t-1"
  aggregateSeq := 1
  channelId := none
  taskId := none
  type := "TASK_STARTED"
  actorAccountId := "a-1"
  causedBy := none
  correlationId := "t-1"
  idempotencyScope := "task"
  idempotencyKey := "k-1"
  policyVersion := "v1"
  payload := payload
  sensitivePayloadCiphertext := none
  sensitivePayloadKeyRef := none
  previousHash := none
  occurredAt := "2026-01-01T00:00:00.000Z"
  contentHash := ""

/-- `1e20` -/
def smaller : Decimal := { sextillion with point := 21 }

def smallerEvent : Event := event (.obj [("x", .float (.num smaller))])

/-- A hash function for the runs. -/
def plain : Digest := fun bytes ↦ toString bytes

end Stored.Sample

open Stored.Sample in
theorem canonicalJson_stored_smaller :
    canonicalJson smallerEvent.payload.stored = canonicalJson smallerEvent.payload ∧
    canonicalJson (hashBody plain { smallerEvent with payload := smallerEvent.payload.stored }) =
      canonicalJson (hashBody plain smallerEvent) ∧
    canonicalJson (.int smaller.toInt) = canonicalJson (.float (.num smaller)) := by
  have h := canonicalJson_stored_iff plain smallerEvent smaller (by decide) (by decide) (by decide)
  exact ⟨h.1.2 (by decide), h.2.1.2 (by decide), h.2.2.2 (by decide)⟩

open Stored.Sample in
/-- A payload with `1e21` is appended with an exponent and read back as a number printed in full. -/
theorem canonicalJson_stored_sextillion : payload.isDict = true ∧ payload.isFinite = true ∧
    canonicalJson payload.stored ≠ canonicalJson payload ∧
    canonicalJson (hashBody plain { event payload with payload := payload.stored }) ≠
      canonicalJson (hashBody plain (event payload)) ∧
    canonicalJson (.int sextillion.toInt) ≠ canonicalJson (.float (.num sextillion)) ∧
    es6Number (.num sextillion) = ['1', 'e', '+', '2', '1'] ∧
    intText sextillion.toInt = '1' :: List.replicate 21 '0' :=
  ⟨by decide, by decide, mt (canonicalJson_stored rfl rfl).1 (by decide),
    mt (@canonicalJson_hashBody_stored plain (event payload) rfl rfl).1 (by decide),
    mt (canonicalJson_toInt (by decide)).1 (by decide), by decide +kernel, by decide +kernel⟩

end AgentColab
