import Mathlib.Data.List.Basic
import TieredPool.Text.Digits
import TieredPool.Text.Pieces

/-!
# Texts — what was written with signs between is read back

* `forall_ascii` — what holds of the characters with small codes.
* `append_sign_inj` — two texts with a sign between them.
* `Text.pieces_joined`, `Text.flatMap_pieces` — any number of texts with a sign between or before them.
* `Text.digitsValue_toString`, `toString_inj` — a number in decimal.
-/

namespace TieredPool

/-! ## Characters -/

/-- What holds of the first 128 codes holds of every character that has one of them. -/
theorem forall_ascii {P : Char → Prop} (h : ∀ n < 128, P (Char.ofNat n)) {c : Char} (hc : c.toNat < 128) :
    P c := by
  rw [← Char.ofNat_toNat c]
  exact h _ hc

/-! ## Signs -/

theorem bne_of_notMem {sign : Char} {cs : List Char} (h : sign ∉ cs) : ∀ c ∈ cs, (c != sign) = true := by
  intro c hc
  exact bne_iff_ne.2 fun heq => h (heq ▸ hc)

/-- Texts that are divided by a sign which stands in neither first part are equal part by part. -/
theorem append_sign_inj {sign : Char} {a b a' b' : String} (ha : sign ∉ a.toList)
    (ha' : sign ∉ a'.toList) (h : a ++ sign.toString ++ b = a' ++ sign.toString ++ b') :
    a = a' ∧ b = b' := by
  -- The first part is what comes before the first sign.
  have hfirst {a b : String} (ha : sign ∉ a.toList) :
      (a ++ sign.toString ++ b).toList.takeWhile (· != sign) = a.toList := by
    simp [List.takeWhile_append_of_pos (bne_of_notMem ha)]
  have haa' : a = a' := by
    rw [← String.toList_inj, ← hfirst (b := b) ha, h, hfirst ha']
  subst haa'
  exact ⟨rfl, (String.append_right_inj _).1 h⟩

namespace Text

variable {isSeparator : Char → Bool} {cs p : List Char} {ps : List (List Char)} {c sign : Char}

/-- A text without separators is one piece. -/
theorem pieces_of_forall (h : ∀ c ∈ p, isSeparator c = false) : pieces isSeparator p = [p] := by
  induction p with
  | nil => rfl
  | cons c p ih =>
      rw [List.forall_mem_cons] at h
      simp [pieces, h.1, ih h.2]

theorem pieces_append (hp : ∀ c ∈ p, isSeparator c = false) (hsign : isSeparator sign = true) :
    pieces isSeparator (p ++ sign :: cs) = p :: pieces isSeparator cs := by
  induction p with
  | nil => simp [pieces, hsign]
  | cons c p ih =>
      rw [List.forall_mem_cons] at hp
      simp [pieces, hp.1, ih hp.2]

/-- A piece holds characters of the text, and no separator. -/
theorem mem_of_mem_pieces (hp : p ∈ pieces isSeparator cs) (hc : c ∈ p) :
    c ∈ cs ∧ isSeparator c = false := by
  induction cs generalizing p with
  | nil =>
      rw [List.mem_singleton.1 hp] at hc
      cases hc
  | cons d cs ih =>
      unfold pieces at hp
      cases hd : isSeparator d with
      | true =>
          simp only [hd, if_true, List.mem_cons] at hp
          rcases hp with rfl | hp
          · cases hc
          · exact ⟨List.mem_cons_of_mem _ (ih hp hc).1, (ih hp hc).2⟩
      | false =>
          rw [if_neg (by simp [hd])] at hp
          obtain ⟨first, rest, heq⟩ := List.exists_cons_of_ne_nil (pieces_ne_nil isSeparator cs)
          simp only [heq, List.mem_cons] at hp ih
          rcases hp with rfl | hp
          · rcases List.mem_cons.1 hc with rfl | hc
            · exact ⟨List.mem_cons_self, hd⟩
            · exact ⟨List.mem_cons_of_mem _ (ih (.inl rfl) hc).1, (ih (.inl rfl) hc).2⟩
          · exact ⟨List.mem_cons_of_mem _ (ih (.inr hp) hc).1, (ih (.inr hp) hc).2⟩

theorem joined_cons (p : List Char) (hps : ps ≠ []) :
    joined [sign] (p :: ps) = p ++ sign :: joined [sign] ps := by
  cases ps with
  | nil => exact absurd rfl hps
  | cons q ps => simp [joined]

/-- Joined pieces are cut where they have been joined. -/
theorem pieces_joined (hsign : isSeparator sign = true) (hps : ps ≠ [])
    (h : ∀ p ∈ ps, ∀ c ∈ p, isSeparator c = false) : pieces isSeparator (joined [sign] ps) = ps := by
  induction ps with
  | nil => exact absurd rfl hps
  | cons p ps ih =>
      rw [List.forall_mem_cons] at h
      cases hrest : ps with
      | nil => exact pieces_of_forall h.1
      | cons q rest =>
          have hne : ps ≠ [] := by simp [hrest]
          rw [← hrest, joined_cons p hne, pieces_append h.1 hsign, ih hne h.2]

theorem mem_of_mem_joined (h : c ∈ joined [sign] ps) : c = sign ∨ ∃ p ∈ ps, c ∈ p := by
  induction ps with
  | nil => cases h
  | cons p ps ih =>
      by_cases hps : ps = []
      · subst hps
        exact .inr ⟨p, List.mem_cons_self, h⟩
      · rw [joined_cons p hps, List.mem_append, List.mem_cons] at h
        rcases h with hp | hsign | hrest
        · exact .inr ⟨p, List.mem_cons_self, hp⟩
        · exact .inl hsign
        · rcases ih hrest with hsign | ⟨q, hq, hc⟩
          · exact .inl hsign
          · exact .inr ⟨q, List.mem_cons_of_mem _ hq, hc⟩

/-- Pieces with a sign before each of them are pieces with a sign between them, and one before all. -/
theorem flatMap_eq_joined (hps : ps ≠ []) : ps.flatMap (sign :: ·) = sign :: joined [sign] ps := by
  induction ps with
  | nil => exact absurd rfl hps
  | cons p ps ih =>
      by_cases hrest : ps = []
      · subst hrest
        simp [joined]
      · rw [List.flatMap_cons, ih hrest, joined_cons p hrest]
        rfl

/-- The pieces of a text, with the sign before each of them again. -/
theorem flatMap_pieces (sign : Char) (cs : List Char) :
    (pieces (· == sign) cs).flatMap (sign :: ·) = sign :: cs := by
  induction cs with
  | nil => rfl
  | cons c cs ih =>
      unfold pieces
      by_cases hc : c = sign
      · simp [hc, ih]
      · obtain ⟨first, rest, heq⟩ := List.exists_cons_of_ne_nil (pieces_ne_nil (· == sign) cs)
        rw [heq] at ih
        simp only [List.flatMap_cons, List.cons_append, List.cons.injEq, true_and] at ih
        simp [hc, heq, ih]

end Text

/-! ## Numbers -/

theorem toList_toString (n : Nat) : (toString n).toList = Nat.toDigits 10 n := by
  rw [Nat.toString_eq_repr, Nat.toList_repr]

theorem isDigit_of_mem_toString {n : Nat} {c : Char} (hc : c ∈ (toString n).toList) :
    c.isDigit = true := by
  rw [toList_toString] at hc
  exact Nat.isDigit_of_mem_toDigits (by decide) (by decide) hc

theorem Text.digitsValue_toString (n : Nat) : digitsValue (toString n).toList = n := by
  have hvalue (cs : List Char) : digitsValue cs = Nat.ofDigitChars 10 cs 0 := by
    simp only [digitsValue, Nat.ofDigitChars_eq_foldl, Nat.mul_comm 10]
    rfl
  rw [hvalue, toList_toString, Nat.ofDigitChars_ten_toDigits]

theorem toString_inj {m n : Nat} (h : toString m = toString n) : m = n := by
  rw [← Text.digitsValue_toString m, ← Text.digitsValue_toString n, h]

end TieredPool
