import Mathlib.Data.List.Sort
import Mathlib.Data.Finset.Card

/-!
# Cutting an enumeration short

A search that stops at its `n`-th hit returns an initial part of the list: `cut p n`. Its hits are
the first `n` hits, so in a list without repetition that is sorted along some key, a hit is found if
and only if fewer than `n` hits come before it.
-/

namespace Enumeration

open List

variable {α : Type} {p : α → Bool}

/-- The initial part of a list that ends with its `n`-th element satisfying `p`. -/
def cut (p : α → Bool) : ℕ → List α → List α
  | 0, _ => []
  | _ + 1, [] => []
  | n + 1, x :: xs => x :: cut p (if p x then n else n + 1) xs

@[simp] theorem cut_zero (xs : List α) : cut p 0 xs = [] := by cases xs <;> rfl

@[simp] theorem cut_nil (n : ℕ) : cut p n [] = [] := by cases n <;> rfl

variable {x : α} {xs : List α} {n : ℕ}

theorem cut_cons_of_pos (hx : p x = true) (n : ℕ) (xs : List α) :
    cut p (n + 1) (x :: xs) = x :: cut p n xs := by
  rw [cut, if_pos hx]

theorem cut_cons_of_neg (hx : p x = false) (n : ℕ) (xs : List α) :
    cut p (n + 1) (x :: xs) = x :: cut p (n + 1) xs := by
  rw [cut, if_neg (by simp [hx])]

theorem cut_append (n : ℕ) (xs ys : List α) :
    cut p n (xs ++ ys) = cut p n xs ++ cut p (n - xs.countP p) ys := by
  induction xs generalizing n with
  | nil => simp
  | cons x _ ih =>
    cases n with
    | zero => simp
    | succ =>
      by_cases hx : p x = true
      · rw [cons_append, cut_cons_of_pos hx, cut_cons_of_pos hx, ih, countP_cons_of_pos hx,
          Nat.add_sub_add_right, cons_append]
      · rw [Bool.not_eq_true] at hx
        rw [cons_append, cut_cons_of_neg hx, cut_cons_of_neg hx, ih,
          countP_cons_of_neg (by simp [hx]), cons_append]

theorem cut_sublist (n : ℕ) (xs : List α) : (cut p n xs).Sublist xs := by
  induction xs generalizing n with
  | nil => simp
  | cons x _ ih =>
    cases n with
    | zero => simp
    | succ => exact (ih _).cons_cons x

/-- **The hits of a cut are the first `n` hits.** -/
theorem filter_cut (n : ℕ) (xs : List α) : (cut p n xs).filter p = (xs.filter p).take n := by
  induction xs generalizing n with
  | nil => simp
  | cons x _ ih =>
    cases n with
    | zero => simp
    | succ =>
      by_cases hx : p x = true
      · rw [cut_cons_of_pos hx, filter_cons_of_pos hx, filter_cons_of_pos hx, take_succ_cons, ih]
      · rw [cut_cons_of_neg (by simpa using hx), filter_cons_of_neg hx, filter_cons_of_neg hx, ih]

/-! ## Ranks -/

variable {κ : Type} [LinearOrder κ] {key : α → κ}

theorem mem_take_iff (hs : (xs.map key).Pairwise (· < ·)) :
    x ∈ xs.take n ↔ x ∈ xs ∧ (xs.filter fun y ↦ key y < key x).length < n := by
  induction xs generalizing n with
  | nil => simp
  | cons y ys ih =>
    obtain ⟨hy, hys⟩ := pairwise_cons.1 hs
    have habove : ∀ z ∈ ys, key y < key z := fun z hz ↦ hy _ (List.mem_map_of_mem hz)
    cases n with
    | zero => simp
    | succ n =>
      rw [take_succ_cons, mem_cons, mem_cons, ih hys]
      constructor
      · rintro (rfl | ⟨hx, hlen⟩)
        · refine ⟨.inl rfl, ?_⟩
          rw [filter_eq_nil_iff.2]
          · exact Nat.succ_pos n
          · intro z hz
            rcases mem_cons.1 hz with rfl | hz
            · simp
            · simpa using (habove z hz).le
        · refine ⟨.inr hx, ?_⟩
          rw [filter_cons_of_pos (by simpa using habove x hx), length_cons]
          exact Nat.succ_lt_succ hlen
      · rintro ⟨rfl | hx, hlen⟩
        · exact .inl rfl
        · refine .inr ⟨hx, ?_⟩
          rw [filter_cons_of_pos (by simpa using habove x hx), length_cons] at hlen
          exact Nat.lt_of_succ_lt_succ hlen

theorem mem_cut_iff (hs : (xs.map key).Pairwise (· < ·)) :
    x ∈ cut p n xs ↔ x ∈ xs ∧ ((xs.filter p).filter fun y ↦ key y < key x).length < n := by
  induction xs generalizing n with
  | nil => simp
  | cons y ys ih =>
    obtain ⟨hy, hys⟩ := pairwise_cons.1 hs
    have habove : ∀ z ∈ ys, key y < key z := fun z hz ↦ hy _ (List.mem_map_of_mem hz)
    -- The first element comes after no hits, and it comes before every other element.
    have hfirst : ((y :: ys).filter p).filter (fun z ↦ key z < key y) = [] := by
      refine filter_eq_nil_iff.2 fun z hz ↦ ?_
      rcases mem_cons.1 (mem_filter.1 hz).1 with rfl | hz
      · simp
      · simpa using (habove z hz).le
    cases n with
    | zero => simp
    | succ =>
      rw [cut, mem_cons, mem_cons, ih hys]
      constructor
      · rintro (rfl | ⟨hx, hlen⟩)
        · exact ⟨.inl rfl, by simp [hfirst]⟩
        · refine ⟨.inr hx, ?_⟩
          by_cases hp : p y = true
          · rw [if_pos hp] at hlen
            rw [filter_cons_of_pos hp, filter_cons_of_pos (by simpa using habove x hx)]
            exact Nat.succ_lt_succ hlen
          · rw [if_neg hp] at hlen
            rwa [filter_cons_of_neg hp]
      · rintro ⟨rfl | hx, hlen⟩
        · exact .inl rfl
        · refine .inr ⟨hx, ?_⟩
          by_cases hp : p y = true
          · rw [filter_cons_of_pos hp, filter_cons_of_pos (by simpa using habove x hx)] at hlen
            rw [if_pos hp]
            exact Nat.lt_of_succ_lt_succ hlen
          · rw [filter_cons_of_neg hp] at hlen
            rwa [if_neg hp]

theorem length_filter_lt (hs : (xs.map key).Pairwise (· < ·)) {S : Finset κ} {k : κ}
    (hS : ∀ j, j ∈ S ↔ j < k ∧ j ∈ xs.map key) : (xs.filter fun y ↦ key y < k).length = S.card := by
  have hmap : ((xs.filter fun y ↦ key y < k).map key) = (xs.map key).filter (· < k) := by
    rw [List.filter_map]
    rfl
  have hnd : ((xs.map key).filter (· < k)).Nodup := (hs.imp fun h ↦ ne_of_lt h).filter _
  rw [← length_map key, hmap, ← toFinset_card_of_nodup hnd]
  congr 1
  ext j
  rw [List.mem_toFinset, mem_filter, hS, decide_eq_true_eq, and_comm]

theorem mem_takeWhile {q : α → Bool} {r : α → α → Prop} (hs : xs.Pairwise r) (hx : x ∈ xs)
    (hq : q x = true) (hbefore : ∀ y ∈ xs, r y x → q y = true) : x ∈ xs.takeWhile q := by
  induction xs with
  | nil => exact absurd hx not_mem_nil
  | cons y _ ih =>
    obtain ⟨hy, hys⟩ := pairwise_cons.1 hs
    rcases mem_cons.1 hx with rfl | hx
    · rw [takeWhile_cons_of_pos hq]
      exact mem_cons_self
    · rw [takeWhile_cons_of_pos (hbefore y mem_cons_self (hy x hx))]
      exact mem_cons_of_mem y (ih hys hx fun z hz ↦ hbefore z (mem_cons_of_mem y hz))

end Enumeration
