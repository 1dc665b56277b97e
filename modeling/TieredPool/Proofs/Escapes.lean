import Mathlib.Data.List.Infix
import Mathlib.Tactic.SplitIfs
import TieredPool.Url.Parse

/-!
# Escapes — what a part of a URL holds once it has been escaped

* `Url.Clean` — a text with nothing to escape; `clean_encode` — what comes of escaping.
* `Url.decode_of_notMem` — a text without escapes.
* `Url.clean_of_dots` — escaping makes no step of a segment that was none.
-/

namespace TieredPool
namespace Url

variable {set : Char → Bool} {cs cs' : List Char}

/-- No character of the text has to be escaped. -/
def Clean (set : Char → Bool) (cs : List Char) : Prop := ∀ c ∈ cs, set c = false

instance : Decidable (Clean set cs) := inferInstanceAs (Decidable (∀ c ∈ cs, set c = false))

/-- Escapes themselves are not escaped. -/
def SparesEscapes (set : Char → Bool) : Prop := set '%' = false ∧ ∀ n < 16, set (hexDigit n) = false

instance : Decidable (SparesEscapes set) :=
  inferInstanceAs (Decidable (set '%' = false ∧ ∀ n < 16, set (hexDigit n) = false))

theorem clean_append : Clean set (cs ++ cs') ↔ Clean set cs ∧ Clean set cs' := List.forall_mem_append

theorem Clean.encode (h : Clean set cs) : encode set cs = cs := by
  induction cs with
  | nil => rfl
  | cons c cs ih =>
      obtain ⟨hc, hcs⟩ := List.forall_mem_cons.1 h
      have hrest : cs.flatMap (encodeChar set) = cs := ih hcs
      simp [Url.encode, encodeChar, hc, hrest]

/-- What is escaped leaves signs of escapes only. -/
theorem mem_encode {c : Char} (hc : c ∈ encode set cs) :
    (c ∈ cs ∧ set c = false) ∨ c = '%' ∨ ∃ n < 16, c = hexDigit n := by
  obtain ⟨d, hd, hc⟩ := List.mem_flatMap.1 hc
  unfold encodeChar at hc
  cases hset : set d with
  | false =>
      rw [hset, if_neg (by decide), List.mem_singleton] at hc
      exact .inl ⟨hc ▸ hd, hc ▸ hset⟩
  | true =>
      rw [hset, if_pos rfl] at hc
      obtain ⟨byte, _, hc⟩ := List.mem_flatMap.1 hc
      have hbyte : byte.toNat < 256 := byte.toNat_lt
      simp only [escape, List.mem_cons, List.not_mem_nil, or_false] at hc
      rcases hc with hc | hc | hc
      · exact .inr (.inl hc)
      · exact .inr (.inr ⟨_, by omega, hc⟩)
      · exact .inr (.inr ⟨_, by omega, hc⟩)

theorem clean_encode (hset : SparesEscapes set) (cs : List Char) : Clean set (encode set cs) := by
  intro c hc
  rcases mem_encode hc with ⟨_, hc⟩ | rfl | ⟨n, hn, rfl⟩
  · exact hc
  · exact hset.1
  · exact hset.2 n hn

theorem decode_of_notMem (h : '%' ∉ cs) : decode cs = utf8 cs := by
  induction cs with
  | nil => rfl
  | cons c cs ih =>
      rw [List.mem_cons, not_or] at h
      have hc : c ≠ '%' := Ne.symm h.1
      rw [decode, ih h.2]
      · rfl
      · exact fun _ _ _ heq _ => hc heq

/-! ## Dots -/

/-- The segments that are steps, in lower case. -/
def dotTexts : List (List Char) :=
  [".", "%2e", "..", ".%2e", "%2e.", "%2e%2e"].map String.toList

theorem mem_dotTexts (h : isSingleDot cs = true ∨ isDoubleDot cs = true) :
    cs.map Char.toLower ∈ dotTexts := by
  unfold isSingleDot isDoubleDot at h
  simp [dotTexts] at h ⊢
  grind

/-- In a step all escapes are those of a dot. -/
theorem escape_of_dots {before after : List Char} {x y : Char}
    (h : before ++ '%' :: x :: y :: after ∈ dotTexts) : x = '2' ∧ y = 'e' := by
  have hall : ∀ w ∈ dotTexts, ∀ t ∈ w.tails, t.head? = some '%' → t.take 3 = ['%', '2', 'e'] := by
    decide
  have htake := hall _ h ('%' :: x :: y :: after) ((List.mem_tails _ _).2 (List.suffix_append _ _)) rfl
  simpa using htake

/-- The bytes of no character but the dot begin with its code. -/
theorem exists_firstByte (c : Char) :
    ∃ b bs, String.utf8EncodeChar c = b :: bs ∧ (b.toNat = 0x2e → c = '.') := by
  have hdot (h : c.toNat = 0x2e) : c = '.' := Char.toNat_inj.1 h
  unfold String.utf8EncodeChar
  dsimp only
  split_ifs with hone
  · refine ⟨_, _, rfl, fun hb => hdot ?_⟩
    simp only [UInt8.toNat_ofNat'] at hb
    change c.val.toNat = 0x2e
    omega
  all_goals
    refine ⟨_, _, rfl, fun hb => ?_⟩
    simp only [UInt8.toNat_ofNat'] at hb
    omega

/-- What is a step once it has been escaped had nothing to escape. -/
theorem clean_of_dots (hdot : set '.' = false) (h : (encode set cs).map Char.toLower ∈ dotTexts) :
    Clean set cs := by
  intro c hc
  refine Bool.eq_false_iff.2 fun hset => ?_
  -- The first byte of an escaped character would be that of a dot.
  obtain ⟨before, after, rfl⟩ := List.append_of_mem hc
  obtain ⟨b, bs, hbytes, hb⟩ := exists_firstByte c
  have hlower : ∀ n < 16, ((hexDigit n).toLower = '2' → n = 2) ∧ ((hexDigit n).toLower = 'e' → n = 14) := by
    decide
  have hlt : b.toNat < 256 := b.toNat_lt
  have hescape : (encode set (before ++ c :: after)).map Char.toLower =
      (encode set before).map Char.toLower ++ '%' :: (hexDigit (b.toNat / 16)).toLower ::
        (hexDigit (b.toNat % 16)).toLower ::
          (bs.flatMap escape ++ encode set after).map Char.toLower := by
    simp [encode, encodeChar, hset, hbytes, escape]
  rw [hescape] at h
  obtain ⟨hhigh, hlow⟩ := escape_of_dots h
  have hhigh' := (hlower _ (by omega)).1 hhigh
  have hlow' := (hlower _ (by omega)).2 hlow
  rw [hb (by omega), hdot] at hset
  cases hset

end Url
end TieredPool
