import AgentColab.Domain.Computation
import AgentColab.Ledger.Forgery
import AgentColab.Settings.Registry
import Mathlib.Algebra.Order.Group.Abs
import Mathlib.Algebra.Order.Group.Int

/-!
# Signed webhooks

A delivery carries a timestamp, a nonce and the HMAC of both and of the digest of its body. `verify`
checks the window, the signature and the digest that the body declares, and then that the nonce is
not remembered. `int` and `compare_digest` refuse some texts with other exceptions.

The hash functions and `str.lower` are parameters. The two clock readings of a call are one, and
texts have a UTF-8 encoding.
-/

namespace AgentColab.Agents.Webhook

open AgentColab List Ledger

/-- `str.isdigit` -/
def isDigit (value : String) : Bool :=
  value.toList ≠ [] && value.toList.all fun c ↦
    isDecimal c || Settings.otherDigits.any fun r ↦ r.1 ≤ c.toNat && c.toNat ≤ r.2

/-- `WebhookError`, and the other exceptions of `int` and `compare_digest`. -/
inductive Raised where
  | webhook (code detail : String)
  | value
  | type
deriving DecidableEq

def headerTimestamp : String := "X-Colab-Timestamp"

def headerNonce : String := "X-Colab-Nonce"

def headerSignature : String := "X-Colab-Signature"

/-- A call of `verify`. -/
structure Call where
  headers : String → Option String
  body : List UInt8
  bodySha256Claim : Option String := none
  now : Time

/-- A call of `sign`, with what `new_nonce` would return. -/
structure Signing where
  body : List UInt8
  now : Time
  nonce : Option String
  newNonce : String

/-- What the calls share. -/
structure Setting where
  hashes : Hashes
  lower : String → String
  key : List UInt8
  windowS : ℤ
  retention : Time

/-- `int(now.timestamp())`, of which the float is exact enough up to the year 2514. -/
def seconds (now : Time) : ℤ := now.tdiv 1000000

variable (P : Setting)

/-- `signing_string` -/
def Setting.signingString (timestamp nonce : String) (body : List UInt8) : String :=
  timestamp ++ "." ++ nonce ++ "." ++ P.hashes.sha256 body

def Setting.mac (text : String) : String := P.hashes.hmac P.key text.toUTF8.data.toList

def Signing.timestamp (s : Signing) : String := String.ofList (intText (seconds s.now))

/-- `nonce or new_nonce()` -/
def Signing.usedNonce (s : Signing) : String := (s.nonce.filter (· ≠ "")).getD s.newNonce

def Setting.signed (s : Signing) : String := P.signingString s.timestamp s.usedNonce s.body

/-- `sign`, without the reference of the key. -/
def Setting.sign (s : Signing) : List (String × String) :=
  [(headerTimestamp, s.timestamp), (headerNonce, s.usedNonce),
    (headerSignature, P.mac (P.signed s))]

/-- `hmac.compare_digest` -/
def equal (a b : String) : Except Raised Bool := (compareDigest a b).mapError fun _ ↦ .type

/-- `headers[name]` -/
def Call.header (c : Call) (name : String) : Except Raised String :=
  match c.headers name with
  | some value => .ok value
  | none => .error (.webhook "WEBHOOK_HEADER_MISSING" ("'" ++ name ++ "'"))

def Setting.checkWindow (timestamp : String) (now : Time) : Except Raised Unit :=
  if isDigit timestamp then
    match Settings.pyInt timestamp with
    | none => .error .value
    | some t =>
      if P.windowS < |seconds now - t| then
        .error (.webhook "WEBHOOK_TIMESTAMP_EXPIRED" ("outside ±" ++ toString P.windowS ++ "s"))
      else .ok ()
  else .error (.webhook "WEBHOOK_TIMESTAMP_EXPIRED" "timestamp not numeric")

/-- The digest that the sender declared. -/
def Setting.checkClaim (c : Call) : Except Raised Unit :=
  match c.bodySha256Claim with
  | none => .ok ()
  | some claim => do
    if ← equal (P.lower claim) (P.hashes.sha256 c.body) then .ok ()
    else .error (.webhook "WEBHOOK_BODY_HASH_MISMATCH" "")

/-- `verify` up to the store of nonces, which it asks for the nonce. -/
def Setting.check (c : Call) : Except Raised String := do
  let timestamp ← c.header headerTimestamp
  let nonce ← c.header headerNonce
  let signature ← c.header headerSignature
  P.checkWindow timestamp c.now
  if ← equal (P.mac (P.signingString timestamp nonce c.body)) (P.lower signature) then
    P.checkClaim c
    return nonce
  else .error (.webhook "WEBHOOK_SIGNATURE_INVALID" "")

/-- `InMemoryNonceStore`: when a nonce was seen. -/
abbrev NonceStore := String → Option Time

/-- The nonces that are not evicted. -/
def Setting.kept (seen : NonceStore) (now : Time) : NonceStore :=
  fun nonce ↦ (seen nonce).filter fun seenAt ↦ now - P.retention ≤ seenAt

/-- `remember` -/
def Setting.remember (seen : NonceStore) (nonce : String) (now : Time) : Bool × NonceStore :=
  if (P.kept seen now nonce).isSome then (false, P.kept seen now)
  else (true, Function.update (P.kept seen now) nonce (some now))

def Setting.verify (seen : NonceStore) (c : Call) : Except Raised Unit × NonceStore :=
  match P.check c with
  | .error e => (.error e, seen)
  | .ok nonce =>
    let r := P.remember seen nonce c.now
    (if r.1 then .ok () else .error (.webhook "WEBHOOK_NONCE_REUSED" ""), r.2)

/-! ## Sequences of calls -/

/-- The store after the calls, of which the last comes first. -/
def Setting.store : List Call → NonceStore
  | [] => fun _ ↦ none
  | c :: calls => (P.verify (Setting.store calls) c).2

/-- What a call after others returns or raises. -/
def Setting.outcome (calls : List Call) (c : Call) : Except Raised Unit :=
  (P.verify (P.store calls) c).1

def Setting.accepted : List Call → List Call
  | [] => []
  | c :: calls =>
    match P.outcome calls c with
    | .ok _ => c :: Setting.accepted calls
    | .error _ => Setting.accepted calls

/-- The times do not decrease. -/
abbrev InOrder (calls : List Call) : Prop := calls.Pairwise fun c d ↦ d.now ≤ c.now

/-! ## What a call checks -/

/-- The timestamp is a numeral within the window. -/
def Setting.Timely (timestamp : String) (now : Time) : Prop :=
  isDigit timestamp = true ∧ ∃ t, Settings.pyInt timestamp = some t ∧ |seconds now - t| ≤ P.windowS

/-- A text that `compare_digest` takes. -/
def Ascii (text : String) : Prop := text.toList.all (·.toNat < 128) = true

/-- The hash functions write hexadecimal digits, and SHA-256 is injective. -/
structure Setting.Ideal : Prop where
  mac : ∀ text, Ascii (P.mac text)
  sha256 : ∀ body, Ascii (P.hashes.sha256 body) ∧ '.' ∉ (P.hashes.sha256 body).toList
  injective : Function.Injective P.hashes.sha256

def Setting.Declares (c : Call) : Prop :=
  ∀ claim, c.bodySha256Claim = some claim → P.lower claim = P.hashes.sha256 c.body

variable {P} {c : Call} {calls : List Call} {s : Signing} {nonce timestamp : String} {now : Time}
  {α β : Type}

theorem header_eq_ok {name value : String} :
    c.header name = .ok value ↔ c.headers name = some value := by
  rw [Call.header]
  cases c.headers name <;> simp

theorem equal_eq_ok {a b : String} : equal a b = .ok true ↔ a = b ∧ Ascii a := by
  rw [equal, mapError_eq_ok, compareDigest, Ascii]
  constructor
  · intro h
    split_ifs at h with hascii
    exact ⟨of_decide_eq_true (Except.ok.inj h), (Bool.and_eq_true_iff.1 hascii).1⟩
  · rintro ⟨rfl, ha⟩
    rw [ha, Bool.and_self, if_pos rfl, decide_eq_true rfl]

theorem checkWindow_eq_ok : P.checkWindow timestamp now = .ok () ↔ P.Timely timestamp now := by
  rw [Setting.checkWindow, Setting.Timely]
  cases isDigit timestamp <;> cases Settings.pyInt timestamp <;> simp

theorem ite_eq_ok {b : Bool} {x : Except Raised α} {e : Raised} {a : α} :
    (if b = true then x else .error e) = .ok a ↔ b = true ∧ x = .ok a := by
  cases b <;> simp

theorem checkClaim_eq_ok (hP : P.Ideal) : P.checkClaim c = .ok () ↔ P.Declares c := by
  rw [Setting.checkClaim, Setting.Declares]
  cases c.bodySha256Claim with
  | none => simp
  | some claim =>
    simp only [bind_eq_ok, ite_eq_ok, Option.some.injEq, forall_eq']
    constructor
    · rintro ⟨-, heq, rfl, -⟩
      exact (equal_eq_ok.1 heq).1
    · intro heq
      exact ⟨true, equal_eq_ok.2 ⟨heq, heq ▸ (hP.sha256 _).1⟩, rfl, trivial⟩

theorem check_eq_ok (hP : P.Ideal) : P.check c = .ok nonce ↔
    ∃ timestamp, c.headers headerTimestamp = some timestamp ∧ c.headers headerNonce = some nonce ∧
      ∃ signature, c.headers headerSignature = some signature ∧ P.Timely timestamp c.now ∧
        P.lower signature = P.mac (P.signingString timestamp nonce c.body) ∧ P.Declares c := by
  simp only [Setting.check, bind_eq_ok, header_eq_ok, ite_eq_ok]
  constructor
  · rintro ⟨timestamp, ht, _, hn, signature, hs, ⟨⟩, hwindow, _, heq, rfl, ⟨⟩, hclaim, hnonce⟩
    obtain rfl := Except.ok.inj hnonce
    exact ⟨timestamp, ht, hn, signature, hs, checkWindow_eq_ok.1 hwindow,
      (equal_eq_ok.1 heq).1.symm, (checkClaim_eq_ok hP).1 hclaim⟩
  · rintro ⟨timestamp, ht, hn, signature, hs, hwindow, heq, hclaim⟩
    exact ⟨timestamp, ht, nonce, hn, signature, hs, (), checkWindow_eq_ok.2 hwindow, true,
      equal_eq_ok.2 ⟨heq.symm, hP.mac _⟩, rfl, (), (checkClaim_eq_ok hP).2 hclaim, rfl⟩

/-! ## What is raised -/

/-- The texts that `int` and `compare_digest` take. -/
structure Setting.Readable (P : Setting) (c : Call) : Prop where
  timestamp : ∀ t, c.headers headerTimestamp = some t → isDigit t = true → Settings.pyInt t ≠ none
  signature : ∀ t, c.headers headerSignature = some t → Ascii (P.lower t)
  claim : ∀ t, c.bodySha256Claim = some t → Ascii (P.lower t)

/-- Only `WebhookError` is raised. -/
def Refuses (x : Except Raised α) : Prop :=
  ∀ e, x = .error e → ∃ code detail, e = .webhook code detail

theorem refuses_ok (a : α) : Refuses (.ok a) := by rintro _ ⟨⟩

theorem refuses_webhook (code detail : String) :
    Refuses (.error (.webhook code detail) : Except Raised α) := fun _ h ↦
  ⟨code, detail, (Except.error.inj h).symm⟩

theorem Refuses.bind {x : Except Raised α} {f : α → Except Raised β} (hx : Refuses x)
    (hf : ∀ a, x = .ok a → Refuses (f a)) : Refuses (x >>= f) := by
  cases x with
  | ok a => exact hf a rfl
  | error e => exact fun e' h ↦ hx e' (by cases h; rfl)

theorem Refuses.ite {b : Bool} {x : Except Raised α} {code detail : String} (hx : Refuses x) :
    Refuses (if b = true then x else .error (.webhook code detail)) := by
  cases b with
  | true => exact hx
  | false => exact refuses_webhook code detail

theorem refuses_equal {a b : String} (ha : Ascii a) (hb : Ascii b) : Refuses (equal a b) := by
  rw [equal, compareDigest, if_pos (Bool.and_eq_true_iff.2 ⟨ha, hb⟩)]
  exact refuses_ok _

theorem refuses_checkWindow (h : isDigit timestamp = true → Settings.pyInt timestamp ≠ none) :
    Refuses (P.checkWindow timestamp now) := by
  rw [Setting.checkWindow]
  cases hdigit : isDigit timestamp with
  | false => exact refuses_webhook _ _
  | true =>
    obtain ⟨t, ht⟩ := Option.ne_none_iff_exists'.1 (h hdigit)
    rw [ht, if_pos rfl]
    dsimp only
    split_ifs
    · exact refuses_webhook _ _
    · exact refuses_ok _

theorem Setting.Readable.refuses_check (hc : P.Readable c) (hP : P.Ideal) :
    Refuses (P.check c) := by
  have hheader : ∀ name, Refuses (c.header name) := fun name ↦ by
    rw [Call.header]
    cases c.headers name
    · exact refuses_webhook _ _
    · exact refuses_ok _
  have hclaim : Refuses (P.checkClaim c) := by
    rw [Setting.checkClaim]
    cases hclaim : c.bodySha256Claim with
    | none => exact refuses_ok _
    | some claim =>
      exact (refuses_equal (hc.claim _ hclaim) (hP.sha256 _).1).bind fun _ _ ↦ .ite (refuses_ok _)
  refine (hheader _).bind fun timestamp ht ↦ (hheader _).bind fun nonce _ ↦
    (hheader _).bind fun signature hs ↦ .bind ?_ fun _ _ ↦
      (refuses_equal (hP.mac _) (hc.signature _ (header_eq_ok.1 hs))).bind fun _ _ ↦
        .ite (hclaim.bind fun _ _ ↦ refuses_ok _)
  exact refuses_checkWindow (hc.timestamp _ (header_eq_ok.1 ht))

/-! ## What was signed -/

/-- The call carries what the signing returned, of the signature up to its case. -/
def Setting.Carries (P : Setting) (c : Call) (s : Signing) : Prop :=
  c.headers headerTimestamp = some s.timestamp ∧ c.headers headerNonce = some s.usedNonce ∧
    c.body = s.body ∧ ∃ signature, c.headers headerSignature = some signature ∧
      P.lower signature = P.mac (P.signed s)

/-- Who carries the HMAC of a text carries that of a text that has been signed. -/
def Setting.Unforgeable (P : Setting) (signings : List Signing) (c : Call) : Prop :=
  ∀ signature, c.headers headerSignature = some signature →
    ∀ text, P.lower signature = P.mac text → ∃ s ∈ signings, text = P.signed s

theorem signingString_inj {timestamp' nonce' : String} {body body' : List UInt8} (hP : P.Ideal)
    (ht : '.' ∉ timestamp.toList) (ht' : '.' ∉ timestamp'.toList)
    (h : P.signingString timestamp nonce body = P.signingString timestamp' nonce' body') :
    timestamp = timestamp' ∧ nonce = nonce' ∧ body = body' := by
  have hplain : ∀ {t : List Char}, '.' ∉ t → ∀ c ∈ t, (c != '.') = true := fun ht c hc ↦
    bne_iff_ne.2 fun heq ↦ ht (heq ▸ hc)
  have htext := congrArg String.toList h
  simp only [Setting.signingString, String.toList_append, append_assoc] at htext
  -- the first dot ends the timestamp, and the last one begins the digest
  obtain ⟨htime, hrest⟩ := append_inj_of_all (hplain ht) (hplain ht') (by simp) (by simp) htext
  have hrev := congrArg reverse (append_cancel_left hrest)
  simp only [reverse_append, append_assoc] at hrev
  obtain ⟨hdigest, hfront⟩ := append_inj_of_all
    (hplain (mem_reverse.not.2 (hP.sha256 body).2)) (hplain (mem_reverse.not.2 (hP.sha256 body').2))
    (by simp) (by simp) hrev
  exact ⟨String.toList_inj.1 htime,
    String.toList_inj.1 (reverse_injective (append_cancel_left hfront)),
    hP.injective (String.toList_inj.1 (reverse_injective hdigest))⟩

theorem dot_not_mem_of_isDigit (h : isDigit timestamp = true) : '.' ∉ timestamp.toList := by
  intro hdot
  have hall := (Bool.and_eq_true_iff.1 h).2
  exact absurd (all_eq_true.1 hall _ hdot) (by decide)

theorem dot_not_mem_timestamp (s : Signing) : '.' ∉ s.timestamp.toList := by
  have hdigits : ∀ n, '.' ∉ Nat.toDigits 10 n := fun n h ↦
    absurd (Nat.isDigit_of_mem_toDigits (by decide) (by decide) h) (by decide)
  rw [Signing.timestamp, String.toList_ofList, intText]
  split_ifs
  · exact fun h ↦ (mem_cons.1 h).elim (by decide) (hdigits _)
  · exact hdigits _

/-- What is checked before the nonce is that the call carries what was signed. -/
theorem check_eq_ok_iff_signed {signings : List Signing} (hP : P.Ideal)
    (hc : P.Unforgeable signings c) : P.check c = .ok nonce ↔ ∃ s ∈ signings,
      P.Carries c s ∧ P.Timely s.timestamp c.now ∧ P.Declares c ∧ s.usedNonce = nonce := by
  rw [check_eq_ok hP]
  constructor
  · rintro ⟨timestamp, ht, hn, signature, hs, hwindow, heq, hclaim⟩
    obtain ⟨s, hmem, hsame⟩ := hc signature hs _ heq
    obtain ⟨rfl, rfl, hbody⟩ := signingString_inj hP (dot_not_mem_of_isDigit hwindow.1)
      (dot_not_mem_timestamp s) hsame
    exact ⟨s, hmem, ⟨ht, hn, hbody, signature, hs, hsame ▸ heq⟩, hwindow, hclaim, rfl⟩
  · rintro ⟨s, -, ⟨ht, hn, hbody, signature, hs, heq⟩, hwindow, hclaim, rfl⟩
    exact ⟨_, ht, hn, signature, hs, hwindow, hbody ▸ heq, hclaim⟩

/-! ## The store of nonces -/

theorem kept_eq_none {seen : NonceStore} : P.kept seen now nonce = none ↔
    ∀ seenAt, seen nonce = some seenAt → seenAt < now - P.retention := by
  rw [Setting.kept, Option.filter_eq_none_iff]
  exact forall₂_congr fun _ _ ↦ decide_eq_true_iff.not.trans not_le

theorem kept_kept_eq_none {seen : NonceStore} {now' : Time} (h : now ≤ now') :
    P.kept (P.kept seen now) now' nonce = none ↔ P.kept seen now' nonce = none := by
  rw [kept_eq_none, kept_eq_none]
  refine forall_congr' fun seenAt ↦ ⟨fun hlate hseen ↦ ?_, fun hlate hkept ↦ ?_⟩
  · by_contra hle
    have hkept := (sub_le_sub_right h P.retention).trans (not_lt.1 hle)
    exact hle (hlate (Option.filter_eq_some_iff.2 ⟨hseen, decide_eq_true hkept⟩))
  · exact hlate (Option.filter_eq_some_iff.1 hkept).1

/-- What a call does with the nonces, and what it comes to. -/
theorem verify_cases (P : Setting) (seen : NonceStore) (c : Call) :
    (∃ nonce, P.check c = .ok nonce ∧ P.kept seen c.now nonce = none ∧
      P.verify seen c = (.ok (), Function.update (P.kept seen c.now) nonce (some c.now))) ∨
    (∃ e, P.check c = .error e ∧ P.verify seen c = (.error e, seen)) ∨
    ∃ nonce, P.check c = .ok nonce ∧ P.kept seen c.now nonce ≠ none ∧ P.verify seen c =
      (.error (.webhook "WEBHOOK_NONCE_REUSED" ""), P.kept seen c.now) := by
  rw [Setting.verify]
  cases P.check c with
  | error e => exact .inr (.inl ⟨e, rfl, rfl⟩)
  | ok nonce =>
    cases hseen : P.kept seen c.now nonce with
    | some => exact .inr (.inr ⟨nonce, rfl, by simp [hseen], by simp [Setting.remember, hseen]⟩)
    | none => exact .inl ⟨nonce, rfl, hseen, by simp [Setting.remember, hseen]⟩

theorem outcome_eq_ok : P.outcome calls c = .ok () ↔
    ∃ nonce, P.check c = .ok nonce ∧ P.kept (P.store calls) c.now nonce = none := by
  rw [Setting.outcome]
  rcases verify_cases P (P.store calls) c with
    ⟨n, hcheck, hkept, hverify⟩ | ⟨e, hcheck, hverify⟩ | ⟨n, hcheck, hkept, hverify⟩
  · simp [hverify, hcheck, hkept]
  · simp [hverify, hcheck]
  · simp [hverify, hcheck, hkept]

theorem Setting.Readable.refuses_outcome (hc : P.Readable c) (hP : P.Ideal) :
    Refuses (P.outcome calls c) := by
  rw [Setting.outcome]
  rcases verify_cases P (P.store calls) c with
    ⟨n, -, -, hverify⟩ | ⟨e, hcheck, hverify⟩ | ⟨n, -, -, hverify⟩ <;> rw [hverify]
  · exact refuses_ok _
  · intro e' he
    obtain rfl := Except.error.inj he
    exact hc.refuses_check hP _ hcheck
  · exact refuses_webhook _ _

theorem accepted_cons_of_ok (h : P.outcome calls c = .ok ()) :
    P.accepted (c :: calls) = c :: P.accepted calls := by
  rw [Setting.accepted, h]

theorem accepted_cons_of_error {e : Raised} (h : P.outcome calls c = .error e) :
    P.accepted (c :: calls) = P.accepted calls := by
  rw [Setting.accepted, h]

theorem mem_of_accepted {a : Call} (h : a ∈ P.accepted calls) :
    a ∈ calls ∧ ∃ nonce, P.check a = .ok nonce := by
  induction calls with
  | nil => exact absurd h not_mem_nil
  | cons c calls ih =>
    cases hout : P.outcome calls c with
    | error e =>
      rw [accepted_cons_of_error hout] at h
      exact (ih h).imp_left (mem_cons_of_mem _)
    | ok u =>
      rw [accepted_cons_of_ok hout] at h
      rcases mem_cons.1 h with rfl | h
      · exact ⟨mem_cons_self, (outcome_eq_ok.1 hout).imp fun _ h ↦ h.1⟩
      · exact (ih h).imp_left (mem_cons_of_mem _)

/-- A nonce is remembered as long as a call within the retention has accepted it. -/
theorem kept_store (hP : P.Ideal) (hsorted : InOrder calls)
    (hnow : ∀ a ∈ calls, a.now ≤ now) (nonce : String) :
    P.kept (P.store calls) now nonce = none ↔ ∀ a ∈ P.accepted calls,
      a.headers headerNonce = some nonce → a.now < now - P.retention := by
  induction calls generalizing now with
  | nil => simp [Setting.kept, Setting.store, Setting.accepted]
  | cons c calls ih =>
    obtain ⟨hc, hsorted⟩ := pairwise_cons.1 hsorted
    obtain ⟨hcnow, hnow⟩ := forall_mem_cons.1 hnow
    have hbefore : ∀ a ∈ P.accepted calls, a.now ≤ c.now := fun a ha ↦ hc a (mem_of_accepted ha).1
    have ih := ih hsorted hnow
    rcases verify_cases P (P.store calls) c with
      ⟨n, hcheck, -, hverify⟩ | ⟨e, hcheck, hverify⟩ | ⟨n, -, -, hverify⟩
    · obtain ⟨_, -, hn, -⟩ := (check_eq_ok hP).1 hcheck
      rw [accepted_cons_of_ok (congrArg Prod.fst hverify), forall_mem_cons, Setting.store, hverify]
      by_cases hsame : n = nonce
      · subst hsame
        rw [kept_eq_none]
        dsimp only
        rw [Function.update_self]
        refine ⟨fun h ↦ ⟨fun _ ↦ h _ rfl, fun a ha _ ↦ (hbefore a ha).trans_lt (h _ rfl)⟩, ?_⟩
        rintro ⟨hlate, -⟩ _ ⟨⟩
        exact hlate hn
      · have hother : P.kept (Function.update (P.kept (P.store calls) c.now) n (some c.now)) now
            nonce = P.kept (P.kept (P.store calls) c.now) now nonce := by
          rw [Setting.kept, Function.update_of_ne (Ne.symm hsame), ← Setting.kept]
        rw [hother, kept_kept_eq_none hcnow, ih]
        refine ⟨fun h ↦ ⟨fun hnonce ↦ absurd (Option.some.inj (hn.symm.trans hnonce)) hsame, h⟩,
          And.right⟩
    · rw [accepted_cons_of_error (congrArg Prod.fst hverify), Setting.store, hverify]
      exact ih
    · rw [accepted_cons_of_error (congrArg Prod.fst hverify), Setting.store, hverify,
        kept_kept_eq_none hcnow]
      exact ih

/-! ## Whole sequences -/

/-- The call carries what was signed, in time, and its nonce is not remembered. -/
def Setting.Returns (P : Setting) (signings : List Signing) (calls : List Call) (c : Call) : Prop :=
  ∃ s ∈ signings, P.Carries c s ∧ P.Timely s.timestamp c.now ∧ P.Declares c ∧
    ∀ a ∈ P.accepted calls, a.headers headerNonce = some s.usedNonce → a.now < c.now - P.retention

theorem outcome_eq_ok_iff_returns {signings : List Signing} (hP : P.Ideal)
    (hc : P.Unforgeable signings c) (hsorted : InOrder (c :: calls)) :
    P.outcome calls c = .ok () ↔ P.Returns signings calls c := by
  obtain ⟨hnow, hsorted⟩ := pairwise_cons.1 hsorted
  simp only [outcome_eq_ok, check_eq_ok_iff_signed hP hc, kept_store hP hsorted hnow]
  constructor
  · rintro ⟨_, ⟨s, hs, hcarries, htimely, hclaim, rfl⟩, hfresh⟩
    exact ⟨s, hs, hcarries, htimely, hclaim, hfresh⟩
  · rintro ⟨s, hs, hcarries, htimely, hclaim, hfresh⟩
    exact ⟨_, ⟨s, hs, hcarries, htimely, hclaim, rfl⟩, hfresh⟩

/-- What the two calls carry has the same timestamp and nonce. -/
def SameRequest (a c : Call) : Prop :=
  a.headers headerTimestamp = c.headers headerTimestamp ∧
    a.headers headerNonce = c.headers headerNonce

/-- Times further apart than the retention are further apart than twice the window. -/
theorem window_lt_of_forgotten {x y w retention : ℤ} (h : (2 * w + 2) * 1000000 ≤ retention)
    (hgap : x < y - retention) : 2 * w < seconds y - seconds x := by
  rw [seconds, seconds, Int.tdiv_eq_ediv, Int.tdiv_eq_ediv]
  have hsign : Int.sign 1000000 = 1 := rfl
  split_ifs <;> omega

theorem accepted_once (hP : P.Ideal) (hretention : (2 * P.windowS + 2) * 1000000 ≤ P.retention)
    (hsorted : InOrder calls) :
    (P.accepted calls).Pairwise fun c a ↦ ¬SameRequest a c := by
  induction calls with
  | nil => exact .nil
  | cons c calls ih =>
    obtain ⟨hnow, hsorted⟩ := pairwise_cons.1 hsorted
    cases hout : P.outcome calls c with
    | error e =>
      rw [accepted_cons_of_error hout]
      exact ih hsorted
    | ok u =>
      rw [accepted_cons_of_ok hout]
      refine pairwise_cons.2 ⟨fun a ha hsame ↦ ?_, ih hsorted⟩
      obtain ⟨htime, hnonce⟩ := hsame
      obtain ⟨n, hcheck, hfree⟩ := outcome_eq_ok.1 hout
      obtain ⟨-, n', hacheck⟩ := mem_of_accepted ha
      obtain ⟨timestamp, ht, hn, _, -, ⟨-, t, hread, hwithin⟩, -⟩ := (check_eq_ok hP).1 hcheck
      obtain ⟨timestamp', ht', -, _, -, ⟨-, t', hread', hwithin'⟩, -⟩ := (check_eq_ok hP).1 hacheck
      obtain rfl := Option.some.inj (ht'.symm.trans (htime.trans ht))
      obtain rfl := Option.some.inj (hread'.symm.trans hread)
      -- the nonce is forgotten only when the window is over
      have hover := window_lt_of_forgotten hretention
        ((kept_store hP hsorted hnow n).1 hfree a ha (hnonce.trans hn))
      rw [abs_le] at hwithin hwithin'
      omega

theorem verify_exact {signings : List Signing} (hP : P.Ideal)
    (hretention : (2 * P.windowS + 2) * 1000000 ≤ P.retention)
    (hsorted : InOrder (c :: calls)) (hc : P.Unforgeable signings c) :
    (P.outcome calls c = .ok () ↔ P.Returns signings calls c) ∧
      (P.Readable c → Refuses (P.outcome calls c)) ∧
      (P.accepted (c :: calls)).Pairwise fun c a ↦ ¬SameRequest a c :=
  ⟨outcome_eq_ok_iff_returns hP hc hsorted, fun hread ↦ hread.refuses_outcome hP,
    accepted_once hP hretention hsorted⟩

/-! ## A nonce that is given twice -/

namespace Sample

open AgentColab.Ledger.Sample (hexBytes hexBytes_ascii hexBytes_injective)

def setting : Setting where
  hashes :=
    ⟨fun bytes ↦ .ofList (hexBytes bytes), fun key message ↦ .ofList (hexBytes (key ++ message))⟩
  lower text := text
  key := [1]
  windowS := 300
  retention := 86400000000

def signing (now : Time) : Signing := ⟨[7], now, some "n", ""⟩

def call (now : Time) : Call where
  headers name := (setting.sign (signing now)).lookup name
  body := [7]
  now := now

theorem dot_not_mem_hexBytes (bytes : List UInt8) : '.' ∉ hexBytes bytes := by
  induction bytes with
  | nil => exact not_mem_nil
  | cons b _ ih =>
    have hb := b.toNat_lt
    have hdigit : ∀ n < 16, '.' ≠ Nat.digitChar n := by decide
    exact not_mem_cons_of_ne_of_not_mem (hdigit _ (by omega))
      (not_mem_cons_of_ne_of_not_mem (hdigit _ (by omega)) ih)

theorem setting_ideal : setting.Ideal where
  mac text := by
    rw [Ascii, Setting.mac, setting, String.toList_ofList]
    exact hexBytes_ascii _
  sha256 body := by
    rw [Ascii, setting, String.toList_ofList]
    exact ⟨hexBytes_ascii _, dot_not_mem_hexBytes _⟩
  injective _ _ h := hexBytes_injective (String.ofList_injective h)

theorem unforgeable {times : List Time} (h : now ∈ times) :
    setting.Unforgeable (times.map signing) (call now) := by
  rintro _ ⟨⟩ text hmac
  refine ⟨_, mem_map_of_mem h, ?_⟩
  have hbytes := append_cancel_left (hexBytes_injective (String.ofList_injective hmac))
  exact (String.toByteArray_inj.1 (ByteArray.ext (Array.toList_inj.1 hbytes))).symm

theorem second_returns_iff : setting.outcome [call 0] (call 90000000000) = .ok () ↔
    setting.Returns ([0, 90000000000].map signing) [call 0] (call 90000000000) :=
  (verify_exact setting_ideal (by decide) (by decide) (unforgeable (by decide))).1

end Sample

open Sample

theorem not_exact : ¬∀ (P : Setting) (signings : List Signing) (calls : List Call) (c : Call),
    P.Ideal → (2 * P.windowS + 2) * 1000000 ≤ P.retention →
      InOrder (c :: calls) → P.Unforgeable signings c →
        (P.outcome calls c = .ok () ↔ ∃ s ∈ signings,
          c.headers headerTimestamp = some s.timestamp ∧
            c.headers headerNonce = some s.usedNonce ∧ c.body = s.body ∧
              P.Timely s.timestamp c.now ∧
                ∀ a ∈ P.accepted calls, a.headers headerNonce ≠ some s.usedNonce) ∧
          Refuses (P.outcome calls c) := by
  intro h
  obtain ⟨hiff, -⟩ := h setting ([0, 90000000000].map signing) [call 0] (call 90000000000)
    setting_ideal (by decide) (by decide) (unforgeable (by decide))
  obtain ⟨s, -, -, hnonce, -, -, hnew⟩ := hiff.1 (by decide +kernel)
  have hfirst : setting.outcome [] (call 0) = .ok () := by decide +kernel
  have hmem : call 0 ∈ setting.accepted [call 0] := by
    rw [accepted_cons_of_ok hfirst]
    exact mem_cons_self
  exact hnew _ hmem hnonce

end AgentColab.Agents.Webhook
