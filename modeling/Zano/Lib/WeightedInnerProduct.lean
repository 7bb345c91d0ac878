import Mathlib

/-! # Weighted inner product arguments

A commitment to two vectors and to their inner product, weighted by the powers of `y`, is halved
with every challenge: the generators and the vectors are folded to half their length, and the
commitment changes by two points that are sent before the challenge. When one element is left, three
masks hide it in an answer to a last challenge.

Who checks the answer needs the folded generators only. Each is a sum of multiples of the first
ones, and the multiple of a generator is a product of challenges and inverses, by the bits of its
index.
-/

namespace WeightedInnerProduct

variable {F P M : Type*} [Field F] [AddCommGroup P] [Module F P] [AddCommGroup M] [Module F M]

/-- `blind` hides what is committed to by a mask, which may be several scalars. -/
def commit (blind : M →ₗ[F] P) (G : P) (y : F) (n : ℕ) (g h : ℕ → P) (a b : ℕ → F)
    (alpha : M) : P :=
  ∑ i ∈ Finset.range n, a i • g i + ∑ i ∈ Finset.range n, b i • h i +
    (∑ i ∈ Finset.range n, a i * y ^ (i + 1) * b i) • G + blind alpha

/-! ## One round -/

def foldG (y e : F) (n : ℕ) (g : ℕ → P) (i : ℕ) : P := e⁻¹ • g i + (e * y⁻¹ ^ n) • g (n + i)

def foldH (e : F) (n : ℕ) (h : ℕ → P) (i : ℕ) : P := e • h i + e⁻¹ • h (n + i)

def foldA (y e : F) (n : ℕ) (a : ℕ → F) (i : ℕ) : F := e * a i + e⁻¹ * y ^ n * a (n + i)

def foldB (e : F) (n : ℕ) (b : ℕ → F) (i : ℕ) : F := e⁻¹ * b i + e * b (n + i)

def left (blind : M →ₗ[F] P) (G : P) (y : F) (n : ℕ) (g h : ℕ → P) (a b : ℕ → F) (mask : M) : P :=
  (∑ i ∈ Finset.range n, a i * y ^ (i + 1) * b (n + i)) • G + blind mask + ∑ i ∈ Finset.range n,
    b (n + i) • h i +
    y⁻¹ ^ n • ∑ i ∈ Finset.range n, a i • g (n + i)

def right (blind : M →ₗ[F] P) (G : P) (y : F) (n : ℕ) (g h : ℕ → P) (a b : ℕ → F) (mask : M) : P :=
  ((∑ i ∈ Finset.range n, a (n + i) * y ^ (i + 1) * b i) * y ^ n) • G + blind mask +
    ∑ i ∈ Finset.range n, b i • h (n + i) +
    y ^ n • ∑ i ∈ Finset.range n, a (n + i) • g i

theorem sum_foldG {y e : F} (yNonzero : y ≠ 0) (eNonzero : e ≠ 0) (n : ℕ) (g : ℕ → P) (a : ℕ → F) :
    ∑ i ∈ Finset.range n, foldA y e n a i • foldG y e n g i =
      ∑ i ∈ Finset.range (n + n), a i • g i + (e ^ 2 * y⁻¹ ^ n) • ∑ i ∈ Finset.range n,
        a i • g (n + i) +
        (e⁻¹ ^ 2 * y ^ n) • ∑ i ∈ Finset.range n, a (n + i) • g i := by
  have powNonzero : y ^ n ≠ 0 := pow_ne_zero n yNonzero
  rw [Finset.sum_range_add]
  simp only [Finset.smul_sum, ← Finset.sum_add_distrib, foldA, foldG, inv_pow]
  refine Finset.sum_congr rfl fun i _ => ?_
  match_scalars <;> field_simp
  ring

theorem sum_foldH {e : F} (eNonzero : e ≠ 0) (n : ℕ) (h : ℕ → P) (b : ℕ → F) :
    ∑ i ∈ Finset.range n, foldB e n b i • foldH e n h i =
      ∑ i ∈ Finset.range (n + n), b i • h i + e ^ 2 • ∑ i ∈ Finset.range n, b (n + i) • h i +
        e⁻¹ ^ 2 • ∑ i ∈ Finset.range n, b i • h (n + i) := by
  rw [Finset.sum_range_add]
  simp only [Finset.smul_sum, ← Finset.sum_add_distrib, foldB, foldH]
  refine Finset.sum_congr rfl fun i _ => ?_
  match_scalars <;> field_simp
  ring

theorem sum_folded (y : F) {e : F} (eNonzero : e ≠ 0) (n : ℕ) (a b : ℕ → F) :
    ∑ i ∈ Finset.range n, foldA y e n a i * y ^ (i + 1) * foldB e n b i =
      ∑ i ∈ Finset.range (n + n), a i * y ^ (i + 1) * b i +
        e ^ 2 * ∑ i ∈ Finset.range n, a i * y ^ (i + 1) * b (n + i) +
          e⁻¹ ^ 2 * ((∑ i ∈ Finset.range n, a (n + i) * y ^ (i + 1) * b i) * y ^ n) := by
  rw [Finset.sum_range_add]
  simp only [Finset.mul_sum, Finset.sum_mul, ← Finset.sum_add_distrib, foldA, foldB]
  refine Finset.sum_congr rfl fun i _ => ?_
  field_simp
  ring

/-- The folded commitment is to the folded vectors. -/
theorem commit_fold (blind : M →ₗ[F] P) (G : P) {y e : F} (yNonzero : y ≠ 0) (eNonzero : e ≠ 0)
    (n : ℕ) (g h : ℕ → P) (a b : ℕ → F) (alpha maskL maskR : M) :
    commit blind G y n (foldG y e n g) (foldH e n h) (foldA y e n a) (foldB e n b)
        (alpha + (e ^ 2 • maskL + e⁻¹ ^ 2 • maskR)) =
      commit blind G y (n + n) g h a b alpha +
        (e ^ 2 • left blind G y n g h a b maskL + e⁻¹ ^ 2 • right blind G y n g h a b maskR) := by
  simp only [commit, left, right, sum_foldG yNonzero eNonzero, sum_foldH eNonzero,
    sum_folded y eNonzero, map_add, map_smul]
  module

/-! ## All rounds -/

/-- Half the length is a power of two, by the challenges still to come. -/
def foldsG (y : F) : List F → (ℕ → P) → ℕ → P
  | [], g => g
  | e :: es, g => foldsG y es (foldG y e (2 ^ es.length) g)

def foldsH : List F → (ℕ → P) → ℕ → P
  | [], h => h
  | e :: es, h => foldsH es (foldH e (2 ^ es.length) h)

/-- The challenge of a round, or its inverse, by the bit of the index that the round removes. -/
def factor : List F → ℕ → F
  | [], _ => 1
  | e :: es, i => (if i.testBit es.length then e else e⁻¹) * factor es i

theorem factor_add_two_pow (es : List F) (i : ℕ) : factor es (2 ^ es.length + i) = factor es i := by
  have higher (es : List F) {k : ℕ} (above : es.length ≤ k) :
      factor es (2 ^ k + i) = factor es i := by
    induction es with
    | nil => rfl
    | cons e es inductionHypothesis =>
        rw [List.length_cons] at above
        rw [factor, factor, inductionHypothesis (by omega), Nat.testBit_two_pow_add_gt (by omega)]
  exact higher es le_rfl

/-- Only the bits that the rounds remove count. -/
theorem factor_congr (es : List F) {i j : ℕ} (same : ∀ k < es.length, i.testBit k = j.testBit k) :
    factor es i = factor es j := by
  induction es with
  | nil => rfl
  | cons e es inductionHypothesis =>
      rw [List.length_cons] at same
      rw [factor, factor, same es.length (by omega),
        inductionHypothesis fun k below => same k (by omega)]

/-- A bit more turns one inverse into the challenge. -/
theorem factor_bit {es : List F} (nonzero : ∀ e ∈ es, e ≠ 0) {i j k : ℕ} (below : k < es.length)
    (set : i.testBit k = true) (clear : j.testBit k = false)
    (same : ∀ l ≠ k, i.testBit l = j.testBit l) :
    factor es i = factor es j * es.getD (es.length - k - 1) 0 ^ 2 := by
  induction es with
  | nil => simp at below
  | cons e es inductionHypothesis =>
      obtain ⟨first, later⟩ := List.forall_mem_cons.mp nonzero
      by_cases top : k = es.length
      · subst top
        have others : factor es i = factor es j := factor_congr es fun l lower => same l lower.ne
        rw [factor, factor, others, set, clear, List.length_cons, Nat.add_sub_cancel_left,
          Nat.sub_self, List.getD_cons_zero, if_pos rfl, if_neg Bool.false_ne_true]
        field_simp
      · have lower : k < es.length := by
          rw [List.length_cons] at below
          omega
        have place : es.length + 1 - k - 1 = es.length - k - 1 + 1 := by omega
        rw [factor, factor, inductionHypothesis later lower, same es.length (Ne.symm top),
          List.length_cons, place, List.getD_cons_succ, mul_assoc]

/-- What is left of the generators. -/
theorem foldsG_zero (y : F) (es : List F) (g : ℕ → P) :
    foldsG y es g 0 = ∑ i ∈ Finset.range (2 ^ es.length), (y⁻¹ ^ i * factor es i) • g i := by
  induction es generalizing g with
  | nil => simp [foldsG, factor]
  | cons e es inductionHypothesis =>
      have lower : ∀ i ∈ Finset.range (2 ^ es.length), factor (e :: es) i = e⁻¹ * factor es i := by
        intro i inside
        simp [factor, Nat.testBit_lt_two_pow (Finset.mem_range.mp inside)]
      have upper : ∀ i ∈ Finset.range (2 ^ es.length), factor (e :: es) (2 ^ es.length + i) =
          e * factor es i := by
        intro i inside
        simp [factor, Nat.testBit_two_pow_add_eq,
          Nat.testBit_lt_two_pow (Finset.mem_range.mp inside), factor_add_two_pow]
      rw [foldsG, inductionHypothesis, List.length_cons, pow_succ, mul_two,
        Finset.sum_range_add, ← Finset.sum_add_distrib]
      refine Finset.sum_congr rfl fun i inside => ?_
      rw [lower i inside, upper i inside, foldG, pow_add]
      module

/-- The other generators are folded with the inverses, so that their bits count the other way. -/
theorem foldsH_zero (es : List F) (h : ℕ → P) :
    foldsH es h 0 =
      ∑ i ∈ Finset.range (2 ^ es.length), factor es (2 ^ es.length - 1 - i) • h i := by
  induction es generalizing h with
  | nil => simp [foldsH, factor]
  | cons e es inductionHypothesis =>
      have positive := Nat.two_pow_pos es.length
      have lower : ∀ i ∈ Finset.range (2 ^ es.length),
          factor (e :: es) (2 ^ es.length + 2 ^ es.length - 1 - i) =
            e * factor es (2 ^ es.length - 1 - i) := by
        intro i inside
        have below := Finset.mem_range.mp inside
        have place : 2 ^ es.length + 2 ^ es.length - 1 - i =
            2 ^ es.length + (2 ^ es.length - 1 - i) := by omega
        rw [place]
        simp [factor, Nat.testBit_two_pow_add_eq,
          Nat.testBit_lt_two_pow (show 2 ^ es.length - 1 - i < 2 ^ es.length by omega),
          factor_add_two_pow]
      have upper : ∀ i ∈ Finset.range (2 ^ es.length),
          factor (e :: es) (2 ^ es.length + 2 ^ es.length - 1 - (2 ^ es.length + i)) =
            e⁻¹ * factor es (2 ^ es.length - 1 - i) := by
        intro i inside
        have place : 2 ^ es.length + 2 ^ es.length - 1 - (2 ^ es.length + i) =
            2 ^ es.length - 1 - i := by omega
        rw [place]
        simp [factor, Nat.testBit_lt_two_pow (show 2 ^ es.length - 1 - i < 2 ^ es.length by omega)]
      rw [foldsH, inductionHypothesis, List.length_cons, pow_succ, mul_two,
        Finset.sum_range_add, ← Finset.sum_add_distrib]
      refine Finset.sum_congr rfl fun i inside => ?_
      rw [lower i inside, upper i inside, foldH]
      module

/-! ## The last round -/

/-- What the answer `r`, `s` and `delta` leaves of the first commitment `A0`, of the points of every
round and of those of the last round. -/
def residual (blind : M →ₗ[F] P) (G : P) (y : F) (g h : ℕ → P) (rounds : List (F × P × P))
    (A0 A B : P) (e r s : F) (delta : M) : P :=
  (r * e) • foldsG y (rounds.map Prod.fst) g 0 + (s * e) • foldsH (rounds.map Prod.fst) h 0 +
    (r * y * s) • G + blind delta -
    e ^ 2 • (A0 + (rounds.map fun (e, L, R) => e ^ 2 • L + e⁻¹ ^ 2 • R).sum) - e • A - B

theorem residual_nil (blind : M →ₗ[F] P) (G : P) (y : F) (g h : ℕ → P) (a b : ℕ → F) (alpha : M)
    (e r s : F) (delta eta : M) :
    residual blind G y g h [] (commit blind G y 1 g h a b alpha)
      ((y * (r * b 0 + s * a 0)) • G + blind delta + (r • g 0 + s • h 0))
      ((r * y * s) • G + blind eta)
      e (r + e * a 0) (s + e * b 0) (eta + e • delta + (e * e) • alpha) = 0 := by
  simp only [residual, commit, foldsG, foldsH, List.map_nil, List.sum_nil, Finset.sum_range_one,
    map_add, map_smul]
  module

/-- A round leaves the residual of the folded commitment. -/
theorem residual_cons (blind : M →ₗ[F] P) (G : P) (y : F) (g h : ℕ → P) (e : F) (L R : P)
    (rounds : List (F × P × P)) (A0 A B : P) (eFinal r s : F) (delta : M) :
    residual blind G y g h ((e, L, R) :: rounds) A0 A B eFinal r s delta =
      residual blind G y (foldG y e (2 ^ rounds.length) g) (foldH e (2 ^ rounds.length) h) rounds
        (A0 + (e ^ 2 • L + e⁻¹ ^ 2 • R)) A B eFinal r s delta := by
  simp only [residual, List.map_cons, List.sum_cons, foldsG, foldsH, List.length_map, add_assoc]

end WeightedInnerProduct
