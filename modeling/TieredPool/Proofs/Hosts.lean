import Mathlib.Algebra.Group.Nat.Defs
import Mathlib.Data.Bool.AllAny
import Mathlib.Data.List.Induction
import Mathlib.Data.List.TakeWhile
import Mathlib.Tactic.SplitIfs
import TieredPool.Proofs.Escapes
import TieredPool.Proofs.Texts

/-!
# Hosts — addresses and names that read back

* `Url.digits?_toDigits` — a number in decimal or hexadecimal.
* `Url.Ipv4.parse?_text`, `Url.Ipv4.parse?_lt` — an IPv4 address is written so that it reads back.
* `Url.Ipv6.parse?_text`, `Url.Ipv6.parse?_wellFormed` — so is an IPv6 address, with its zeros left out.
* `Url.DomainToAscii.Standard` — what the standard says of the conversion of names;
  `Url.DomainToAscii.standard_ascii` — the conversion of names that are in ASCII keeps to it.
* `Url.Host.Normal` — the hosts that special schemes come to; `parseSpecial_text` — they read back.
-/

namespace TieredPool
namespace Url

variable {cs : List Char} {n : Nat} {ps : List Nat}

/-- Where all elements are mapped, each value comes from one of them. -/
theorem mapM_spec {β γ : Type} {f : β → Option γ} {l : List β} {l' : List γ} (h : l.mapM f = some l') :
    l'.length = l.length ∧ ∀ c ∈ l', ∃ b ∈ l, f b = some c := by
  induction l generalizing l' with
  | nil =>
      cases h
      simp
  | cons b l ih =>
      rw [List.mapM_cons] at h
      obtain ⟨c, hc, h⟩ := Option.bind_eq_some_iff.1 h
      obtain ⟨rest, hrest, h⟩ := Option.bind_eq_some_iff.1 h
      cases h
      obtain ⟨hlength, hall⟩ := ih hrest
      refine ⟨by simp [hlength], List.forall_mem_cons.2 ⟨⟨b, List.mem_cons_self, hc⟩, fun d hd => ?_⟩⟩
      obtain ⟨b', hb', hd⟩ := hall d hd
      exact ⟨b', List.mem_cons_of_mem _ hb', hd⟩

theorem mapM_map_of_forall {β γ : Type} {f : β → Option γ} {g : γ → β} {l : List γ}
    (h : ∀ c ∈ l, f (g c) = some c) : (l.map g).mapM f = some l := by
  induction l with
  | nil => rfl
  | cons c l ih =>
      rw [List.forall_mem_cons] at h
      simp [h.1, ih h.2]

/-! ## Digits -/

namespace Ipv4

theorem digits?_concat (base : Nat) (cs : List Char) (c : Char) :
    digits? base (cs ++ [c]) = (hexValue? c).bind fun v =>
      if v < base then (digits? base cs).map (· * base + v) else none := by
  simp only [digits?, List.foldl_append, List.foldl_cons, List.foldl_nil]
  refine congrArg _ (funext fun v => ?_)
  split
  · cases List.foldl _ _ cs <;> rfl
  · rfl

theorem hexValue?_digitChar {d : Nat} (h : d < 16) : hexValue? d.digitChar = some d := by
  have hall : ∀ d < 16, hexValue? d.digitChar = some d := by decide
  exact hall d h

/-- A number is what its digits read as. -/
theorem digits?_toDigits {base : Nat} (hone : 1 < base) (hbase : base ≤ 16) (n : Nat) :
    digits? base (Nat.toDigits base n) = some n := by
  induction n using Nat.strongRecOn with
  | ind n ih =>
      by_cases hn : n < base
      · have hvalue := hexValue?_digitChar (show n < 16 by omega)
        rw [Nat.toDigits_of_lt_base hn]
        simp [digits?, hvalue, hn]
      · -- The last digit is the remainder, and before it stand the digits of the quotient.
        have hle : base ≤ n := Nat.le_of_not_lt hn
        have hmod : n % base < base := Nat.mod_lt n (by omega)
        have hvalue := hexValue?_digitChar (show n % base < 16 by omega)
        have hlt : n / base < n := Nat.div_lt_self (by omega) hone
        rw [Nat.toDigits_of_base_le hone hle, digits?_concat, hvalue, ih _ hlt]
        simp [hmod, Nat.div_add_mod']

/-- Digits write no more than their number allows. -/
theorem digits?_lt {base : Nat} (h : digits? base cs = some n) : n < base ^ cs.length := by
  induction cs using List.reverseRecOn generalizing n with
  | nil =>
      obtain rfl : 0 = n := by simpa [digits?] using h
      simp
  | append_singleton cs c ih =>
      rw [digits?_concat] at h
      cases hv : hexValue? c with
      | none => simp [hv] at h
      | some v =>
          cases hm : digits? base cs with
          | none => simp [hv, hm] at h
          | some m =>
              have hm' := ih hm
              by_cases hlt : v < base
              · obtain rfl : m * base + v = n := by simpa [hv, hm, hlt] using h
                rw [List.length_append, List.length_singleton, Nat.pow_succ]
                calc m * base + v < m * base + base := by omega
                  _ = (m + 1) * base := by rw [Nat.succ_mul]
                  _ ≤ base ^ cs.length * base := Nat.mul_le_mul_right base hm'
              · simp [hv, hm, hlt] at h

/-- The digits of numbers are those of the hexadecimal system in lower case. -/
theorem mem_toDigits {b : Nat} (hone : 1 < b) (hbase : b ≤ 16) {c : Char}
    (hc : c ∈ Nat.toDigits b n) : c ∈ "0123456789abcdef".toList := by
  have hdigit : ∀ d < 16, d.digitChar ∈ "0123456789abcdef".toList := by decide
  induction n using Nat.strongRecOn with
  | ind n ih =>
      by_cases hn : n < b
      · rw [Nat.toDigits_of_lt_base hn, List.mem_singleton] at hc
        rw [hc]
        exact hdigit n (by omega)
      · have hle : b ≤ n := Nat.le_of_not_lt hn
        have hmod : n % b < b := Nat.mod_lt n (by omega)
        rw [Nat.toDigits_of_base_le hone hle, List.mem_append, List.mem_singleton] at hc
        rcases hc with hc | rfl
        · exact ih _ (Nat.div_lt_self (by omega) hone) hc
        · exact hdigit _ (by omega)

/-! ## Dotted addresses -/

theorem number?_byte (h : n < 256) : number? (toString n).toList = some n := by
  have hall : ∀ n < 256, number? (Nat.toDigits 10 n) = some n := by decide +kernel
  rw [toList_toString, hall n h]

theorem assemble?_lt {room : Nat} {ns : List Nat} (hroom : ns.length ≤ room)
    (h : assemble? room ns = some n) : n < 256 ^ room := by
  induction ns generalizing room n with
  | nil => cases h
  | cons m rest ih =>
      cases hrest : rest with
      | nil =>
          rw [hrest] at h
          simp only [assemble?] at h
          split_ifs at h with hlt
          obtain rfl := Option.some.inj h
          exact hlt
      | cons m' rest' =>
          rw [hrest] at h
          simp only [assemble?] at h
          split_ifs at h with hm
          rw [← hrest] at h
          obtain ⟨k, hk, rfl⟩ := Option.map_eq_some_iff.1 h
          have hlength : rest.length + 1 ≤ room := hroom
          obtain ⟨room, rfl⟩ : ∃ r, room = r + 1 := ⟨room - 1, by omega⟩
          -- The first number is the highest byte, and the others fit below it.
          have hk' : k < 256 ^ room := ih (by omega) hk
          have hle : m * 256 ^ room ≤ 255 * 256 ^ room := Nat.mul_le_mul_right _ (by omega)
          simp only [Nat.add_sub_cancel, Nat.pow_eq, Nat.pow_succ] at hk' hle ⊢
          omega

theorem parse?_lt (h : parse? cs = some n) : n < 256 ^ 4 := by
  unfold parse? at h
  dsimp only at h
  split_ifs at h with hlength
  obtain ⟨ns, hns, hn⟩ := Option.bind_eq_some_iff.1 h
  have hsame := (mapM_spec hns).1
  exact assemble?_lt (by omega) hn

/-- The decimal text of a number. -/
def decimal (n : Nat) : List Char := (toString n).toList

/-- The bytes of an address, the highest first. -/
def bytes (n : Nat) : List Nat := [n / 256 ^ 3 % 256, n / 256 ^ 2 % 256, n / 256 % 256, n % 256]

theorem text_eq (n : Nat) : text n = Text.joined ['.'] ((bytes n).map decimal) := by
  simp [text, bytes, decimal]

theorem bytes_lt {m : Nat} (h : m ∈ bytes n) : m < 256 := by
  simp only [bytes, List.mem_cons, List.not_mem_nil, or_false] at h
  omega

theorem decimal_ne_nil (n : Nat) : decimal n ≠ [] := by
  rw [decimal, toList_toString]
  exact Nat.toDigits_ne_nil

theorem parts_text (n : Nat) : parts (text n) = (bytes n).map decimal := by
  have hpieces : Text.pieces (· == '.') (text n) = (bytes n).map decimal := by
    rw [text_eq]
    refine Text.pieces_joined rfl (by simp [bytes]) fun p hp c hc => ?_
    obtain ⟨m, _, rfl⟩ := List.mem_map.1 hp
    have hdigit := isDigit_of_mem_toString hc
    refine beq_false_of_ne ?_
    rintro rfl
    cases hdigit
  have hlast : ((bytes n).map decimal).getLast? ≠ some [] := by
    simpa [bytes] using decimal_ne_nil _
  simp only [parts, hpieces, if_neg hlast]

theorem isNumeric_text (n : Nat) : isNumeric (text n) = true := by
  have hlast : (parts (text n)).getLast? = some (decimal (n % 256)) := by
    rw [parts_text]
    rfl
  have hdigits : (decimal (n % 256)).all Char.isDigit = true :=
    List.all_eq_true.2 fun c hc => isDigit_of_mem_toString hc
  simp [isNumeric, hlast, hdigits, decimal_ne_nil]

theorem assemble?_bytes (h : n < 256 ^ 4) : assemble? 4 (bytes n) = some n := by
  have hbyte (m : Nat) : m % 256 < 256 := Nat.mod_lt m (by decide)
  simp only [bytes, assemble?, if_pos (hbyte _), Option.map_some, Option.some.injEq]
  simp only [Nat.pow_eq] at h ⊢
  omega

/-- An address reads back from its four bytes. -/
theorem parse?_text (h : n < 256 ^ 4) : parse? (text n) = some n := by
  have hnumbers : ((bytes n).map decimal).mapM number? = some (bytes n) :=
    mapM_map_of_forall fun _ hm => number?_byte (bytes_lt hm)
  have hlength : ¬ 4 < ((bytes n).map decimal).length := by simp [bytes]
  simp only [parse?, parts_text, if_neg hlength, hnumbers, Option.bind_some, assemble?_bytes h]

end Ipv4

/-! ## Addresses of eight pieces -/

namespace Ipv6

theorem piece?_pieceText (h : n < 65536) : piece? (pieceText n) = some n := by
  have hpos : 1 ≤ (Nat.toDigits 16 n).length := Nat.length_toDigits_pos
  have hle : (Nat.toDigits 16 n).length ≤ 4 := (Nat.length_toDigits_le_iff (by decide) (by decide)).2 h
  rw [piece?, pieceText, if_pos ⟨hpos, hle⟩]
  exact Ipv4.digits?_toDigits (by decide) (by decide) n

theorem notMem_pieceText {c : Char} (hc : c ∉ "0123456789abcdef".toList) (n : Nat) : c ∉ pieceText n :=
  fun h => hc (Ipv4.mem_toDigits (b := 16) (by decide) (by decide) h)

theorem pieceText_ne_nil (n : Nat) : pieceText n ≠ [] := Nat.toDigits_ne_nil

theorem pieces?_map (hps : ∀ p ∈ ps, p < 65536) (dottedLast : Bool) :
    pieces? dottedLast (ps.map pieceText) = some ps := by
  induction ps with
  | nil => rfl
  | cons p ps ih =>
      rw [List.forall_mem_cons] at hps
      have hp := piece?_pieceText hps.1
      cases hrest : ps with
      | nil =>
          have hdot : '.' ∉ pieceText p := notMem_pieceText (by decide) p
          simp [pieces?, hdot, hp]
      | cons q rest =>
          have hrest' := ih hps.2
          rw [hrest] at hrest'
          simp only [List.map_cons] at hrest' ⊢
          rw [pieces?, hp, hrest']
          · rfl
          · simp

theorem groups_nil : groups [] = [] := rfl

theorem groups_ne_nil (hps : ps ≠ []) : groups ps ≠ [] := by
  obtain ⟨p, rest, rfl⟩ := List.exists_cons_of_ne_nil hps
  cases rest with
  | nil => exact pieceText_ne_nil p
  | cons q rest => simp [groups, Text.joined, pieceText_ne_nil]

/-- One side of an address reads back. -/
theorem side?_groups (hps : ∀ p ∈ ps, p < 65536) (dottedLast : Bool) :
    side? dottedLast (groups ps) = some ps := by
  by_cases hnil : ps = []
  · subst hnil
    rfl
  · have hpieces : Text.pieces (· == ':') (groups ps) = ps.map pieceText := by
      refine Text.pieces_joined rfl (by simpa using hnil) fun t ht c hc => ?_
      obtain ⟨p, _, rfl⟩ := List.mem_map.1 ht
      refine beq_false_of_ne ?_
      rintro rfl
      exact notMem_pieceText (by decide) p hc
    have hne : (groups ps).isEmpty = false := by simpa using groups_ne_nil hnil
    rw [side?, hne, hpieces]
    exact pieces?_map hps dottedLast

/-! ### The run of zeros -/

theorem splitAtRun_append {tail : List Char} (hcs : ':' ∉ cs) :
    splitAtRun (cs ++ tail) = (splitAtRun tail).map fun s => (cs ++ s.1, s.2) := by
  induction cs with
  | nil => simp
  | cons c cs ih =>
      rw [List.mem_cons, not_or] at hcs
      rw [List.cons_append, splitAtRun, ih hcs.2]
      · cases splitAtRun tail <;> rfl
      · rintro rest rfl
        exact absurd rfl hcs.1

theorem splitAtRun_colon {tail : List Char} (h : tail.head? ≠ some ':') :
    splitAtRun (':' :: tail) = (splitAtRun tail).map fun s => (':' :: s.1, s.2) := by
  rw [splitAtRun]
  rintro rest - rfl
  exact h rfl

/-- Groups have no run among them. -/
theorem splitAtRun_groups (ps : List Nat) (tail : List Char) :
    splitAtRun (groups ps ++ tail) = (splitAtRun tail).map fun s => (groups ps ++ s.1, s.2) := by
  have hcolon (p : Nat) : ':' ∉ pieceText p := notMem_pieceText (by decide) p
  induction ps with
  | nil => simp [groups_nil]
  | cons p ps ih =>
      by_cases hps : ps = []
      · subst hps
        exact splitAtRun_append (hcolon p)
      · have hjoined : groups (p :: ps) = pieceText p ++ ':' :: groups ps :=
          Text.joined_cons _ (by simpa using hps)
        obtain ⟨q, rest, rfl⟩ := List.exists_cons_of_ne_nil hps
        -- The colon between two groups begins no run, as a group is never empty.
        have hhead : (groups (q :: rest) ++ tail).head? ≠ some ':' := by
          obtain ⟨c, cs, hq⟩ := List.exists_cons_of_ne_nil (pieceText_ne_nil q)
          have hc : c ≠ ':' := by
            rintro rfl
            exact hcolon q (hq ▸ List.mem_cons_self)
          have hgroups : (groups (q :: rest)).head? = some c := by
            cases rest <;> simp [groups, Text.joined, hq]
          simpa [List.head?_append, hgroups] using hc
        rw [hjoined, List.append_assoc, List.cons_append, splitAtRun_append (hcolon p),
          splitAtRun_colon hhead, ih]
        cases splitAtRun tail <;> simp

theorem replicate_leadingZeros (ps : List Nat) :
    List.replicate (leadingZeros ps) 0 ++ ps.drop (leadingZeros ps) = ps := by
  induction ps with
  | nil => rfl
  | cons p ps ih =>
      by_cases hp : p = 0
      · have hzeros : leadingZeros (p :: ps) = leadingZeros ps + 1 := by simp [leadingZeros, hp]
        rw [hzeros, List.replicate_succ, List.drop_succ_cons, List.cons_append, ih, hp]
      · have hzeros : leadingZeros (p :: ps) = 0 := by simp [leadingZeros, hp]
        rw [hzeros]
        rfl

/-- Around the longest run of zeros stand the other pieces. -/
theorem longestZeros_spec (ps : List Nat) :
    ps.take (longestZeros ps).1 ++ List.replicate (longestZeros ps).2 0 ++
      ps.drop ((longestZeros ps).1 + (longestZeros ps).2) = ps := by
  induction ps with
  | nil => rfl
  | cons p ps ih =>
      simp only [longestZeros]
      split
      · simpa using replicate_leadingZeros (p :: ps)
      · simpa [Nat.add_right_comm _ 1] using ih

/-- An address reads back. -/
theorem parse?_text (hlength : ps.length = 8) (hps : ∀ p ∈ ps, p < 65536) : parse? (text ps) = some ps := by
  unfold text
  generalize hrun : longestZeros ps = run
  obtain ⟨start, length⟩ := run
  dsimp only
  split
  case isTrue hlong =>
    have hspec := longestZeros_spec ps
    rw [hrun] at hspec
    dsimp only at hspec
    -- Both sides of the run are read, and it takes up the room between them.
    have hrooms := congrArg List.length hspec
    simp only [List.length_append, List.length_replicate, hlength] at hrooms
    have hleft : side? false (groups (ps.take start)) = some (ps.take start) :=
      side?_groups (fun p hp => hps p (List.mem_of_mem_take hp)) false
    have hright : side? true (groups (ps.drop (start + length))) = some (ps.drop (start + length)) :=
      side?_groups (fun p hp => hps p (List.mem_of_mem_drop hp)) true
    have hsplit : splitAtRun (groups (ps.take start) ++ [':', ':'] ++ groups (ps.drop (start + length))) =
        some (groups (ps.take start), groups (ps.drop (start + length))) := by
      rw [List.append_assoc, splitAtRun_groups]
      simp [splitAtRun]
    have hroom : (ps.take start).length + (ps.drop (start + length)).length < 8 := by omega
    have hzeros : 8 - (ps.take start).length - (ps.drop (start + length)).length = length := by omega
    rw [parse?, hsplit]
    simp only [hleft, hright, Option.bind_eq_bind, Option.bind_some, if_pos hroom, hzeros]
    exact congrArg some hspec
  case isFalse hshort =>
    -- One zero alone is written out, so there is no run to be read.
    have hnone : splitAtRun (groups ps) = none := by
      have hsplit := splitAtRun_groups ps []
      rwa [List.append_nil] at hsplit
    rw [parse?, hnone]
    simp [side?_groups hps, hlength]

/-! ### What addresses hold -/

theorem lt_of_piece? (h : piece? cs = some n) : n < 65536 := by
  unfold piece? at h
  split_ifs at h with hlength
  calc n < 16 ^ cs.length := Ipv4.digits?_lt h
    _ ≤ 16 ^ 4 := Nat.pow_le_pow_right (by decide) hlength.2

theorem lt_of_dotted? (h : dotted? cs = some ps) : ∀ p ∈ ps, p < 65536 := by
  have hbyte {cs : List Char} {m : Nat} (h : byte? cs = some m) : m < 256 := by
    unfold byte? at h
    split at h
    · cases h
    · cases h
      decide
    · cases h
    · exact of_decide_eq_true (Option.filter_eq_some_iff.1 h).2
  unfold dotted? at h
  split at h
  case h_1 a b c d hbytes =>
    obtain rfl := Option.some.inj h
    have hlt : ∀ m ∈ [a, b, c, d], m < 256 := by
      intro m hm
      obtain ⟨t, _, ht⟩ := (mapM_spec hbytes).2 m hm
      exact hbyte ht
    simp only [List.forall_mem_cons, List.not_mem_nil, false_implies, implies_true, and_true] at hlt ⊢
    omega
  case h_2 => cases h

theorem lt_of_pieces? {dottedLast : Bool} {parts : List (List Char)} (h : pieces? dottedLast parts = some ps) :
    ∀ p ∈ ps, p < 65536 := by
  induction parts generalizing ps with
  | nil =>
      cases h
      simp
  | cons t rest ih =>
      cases hrest : rest with
      | nil =>
          rw [hrest] at h
          simp only [pieces?] at h
          split_ifs at h
          · exact lt_of_dotted? h
          · obtain ⟨n, hn, rfl⟩ := Option.map_eq_some_iff.1 h
            simpa using lt_of_piece? hn
      | cons u rest' =>
          rw [hrest, pieces?, ← hrest] at h
          · obtain ⟨n, hn, h⟩ := Option.bind_eq_some_iff.1 h
            obtain ⟨ns, hns, h⟩ := Option.bind_eq_some_iff.1 h
            cases h
            exact List.forall_mem_cons.2 ⟨lt_of_piece? hn, ih hns⟩
          · simp

theorem lt_of_side? {dottedLast : Bool} (h : side? dottedLast cs = some ps) : ∀ p ∈ ps, p < 65536 := by
  unfold side? at h
  split_ifs at h
  · cases h
    simp
  · exact lt_of_pieces? h

/-- What is read as an address has eight pieces of two bytes each. -/
theorem parse?_wellFormed (h : parse? cs = some ps) : ps.length = 8 ∧ ∀ p ∈ ps, p < 65536 := by
  unfold parse? at h
  split at h
  · obtain ⟨hside, hlength⟩ := Option.filter_eq_some_iff.1 h
    exact ⟨by simpa using hlength, lt_of_side? hside⟩
  · obtain ⟨left, hleft, h⟩ := Option.bind_eq_some_iff.1 h
    obtain ⟨right, hright, h⟩ := Option.bind_eq_some_iff.1 h
    split_ifs at h with hroom
    cases h
    refine ⟨by simp; omega, ?_⟩
    simp only [List.mem_append, List.mem_replicate]
    rintro p ((hp | ⟨_, rfl⟩) | hp)
    · exact lt_of_side? hleft p hp
    · decide
    · exact lt_of_side? hright p hp

end Ipv6

/-! ## Names in ASCII -/

theorem toLower_toLower (c : Char) : c.toLower.toLower = c.toLower := by
  by_cases h : 'A' ≤ c ∧ c ≤ 'Z'
  · have hlt : c.toNat < 128 := Nat.lt_of_le_of_lt (UInt32.le_iff_toNat_le.1 h.2) (by decide)
    exact forall_ascii (P := fun c => c.toLower.toLower = c.toLower) (by decide) hlt
  · have hlower : c.toLower = c := dif_neg h
    rw [hlower, hlower]

theorem map_toLower_map_toLower (cs : List Char) :
    (cs.map Char.toLower).map Char.toLower = cs.map Char.toLower := by
  rw [List.map_map]
  exact List.map_congr_left fun c _ => toLower_toLower c

/-- A name in ASCII has one byte for each character. -/
theorem utf8_of_ascii (h : ∀ c ∈ cs, c.toNat < 0x80) : utf8 cs = cs.map fun c => UInt8.ofNat c.toNat := by
  induction cs with
  | nil => rfl
  | cons c cs ih =>
      rw [List.forall_mem_cons] at h
      have hsize : c.utf8Size = 1 :=
        Char.utf8Size_eq_one_iff.2 (UInt32.le_iff_toNat_le.2 (Nat.le_of_lt_succ h.1))
      have hrest : cs.flatMap String.utf8EncodeChar = cs.map fun c => UInt8.ofNat c.toNat := ih h.2
      rw [utf8, List.flatMap_cons, String.utf8EncodeChar_eq_singleton hsize, hrest]
      rfl

theorem hasEncodedLabel_map_toLower (cs : List Char) :
    hasEncodedLabel (cs.map Char.toLower) = hasEncodedLabel cs := by
  unfold hasEncodedLabel
  rw [map_toLower_map_toLower]

theorem hasEncodedLabel_of_notMem (h : 'x' ∉ cs.map Char.toLower) : hasEncodedLabel cs = false := by
  refine Bool.eq_false_iff.2 fun hlabel => ?_
  obtain ⟨label, hmem, hprefix⟩ := List.any_eq_true.1 hlabel
  have hx : 'x' ∈ label := (List.isPrefixOf_iff_prefix.1 hprefix).subset (by decide)
  exact h (Text.mem_of_mem_pieces hmem hx).1

namespace DomainToAscii

/-- What the standard says of the conversion of names to ASCII. Of a name that is in ASCII and has no
encoded label, only the letters are lowered. The result of a conversion is converted to itself. -/
structure Standard (domains : DomainToAscii) : Prop where
  ascii : ∀ cs, (∀ c ∈ cs, c.toNat < 0x80 ∧ Host.forbiddenInName c = false) →
    hasEncodedLabel cs = false → domains.convert? (utf8 cs) = some (cs.map Char.toLower)
  stable : ∀ bytes cs, domains.convert? bytes = some cs → domains.convert? (utf8 cs) = some cs

theorem convert?_ascii (h : ∀ c ∈ cs, c.toNat < 0x80) :
    ascii.convert? (utf8 cs) = if hasEncodedLabel cs then none else some (cs.map Char.toLower) := by
  have hbyte : ∀ c ∈ cs, (UInt8.ofNat c.toNat).toNat = c.toNat := fun c hc =>
    UInt8.toNat_ofNat_of_lt' (Nat.lt_trans (h c hc) (by decide))
  have hback : (cs.map fun c => UInt8.ofNat c.toNat).map (fun b => (Char.ofNat b.toNat).toLower) =
      cs.map Char.toLower := by
    rw [List.map_map]
    exact List.map_congr_left fun c hc => by simp [hbyte c hc]
  have hall : (cs.map fun c => UInt8.ofNat c.toNat).all (· < 0x80) = true := by
    simp only [List.all_map, List.all_eq_true, Function.comp_apply, decide_eq_true_eq]
    intro c hc
    rw [UInt8.lt_iff_toNat_lt, hbyte c hc]
    exact h c hc
  simp only [ascii, utf8_of_ascii h, hback, hall, hasEncodedLabel_map_toLower]
  cases hasEncodedLabel cs <;> rfl

theorem standard_ascii : ascii.Standard where
  ascii := fun cs hchars hplain => by
    rw [convert?_ascii fun c hc => (hchars c hc).1, hplain]
    rfl
  stable := fun bytes cs h => by
    have hlower : ∀ n < 0x80, (Char.ofNat n).toLower.toNat < 0x80 := by decide
    simp only [ascii] at h
    split_ifs at h with hname
    rw [Bool.and_eq_true, List.all_eq_true] at hname
    obtain ⟨hbytes, hplain⟩ := hname
    obtain rfl := Option.some.inj h
    have hchars : ∀ c ∈ bytes.map (fun b => (Char.ofNat b.toNat).toLower), c.toNat < 0x80 := by
      refine List.forall_mem_map.2 fun b hb => hlower _ ?_
      exact UInt8.lt_iff_toNat_lt.1 (of_decide_eq_true (hbytes b hb))
    have hsame : (bytes.map fun b => (Char.ofNat b.toNat).toLower).map Char.toLower =
        bytes.map fun b => (Char.ofNat b.toNat).toLower := by
      rw [List.map_map]
      exact List.map_congr_left fun b _ => toLower_toLower _
    rw [convert?_ascii hchars, hsame, if_neg (by simpa using hplain)]

end DomainToAscii

/-! ## Hosts -/

namespace Host

variable {domains : DomainToAscii}

/-- A host as special schemes have it. -/
inductive Normal (domains : DomainToAscii) : Host → Prop
  | name {cs : List Char} (nonempty : cs ≠ []) (chars : ∀ c ∈ cs, forbiddenInName c = false)
      (converted : domains.convert? (utf8 cs) = some cs) (word : Ipv4.isNumeric cs = false) :
      Normal domains (.name cs)
  | ipv4 {n : Nat} (small : n < 256 ^ 4) : Normal domains (.ipv4 n)
  | ipv6 {ps : List Nat} (eight : ps.length = 8) (small : ∀ p ∈ ps, p < 65536) : Normal domains (.ipv6 ps)

theorem normal_of_parseSpecial (hdomains : domains.Standard) {host : Host}
    (h : parseSpecial domains cs = .ok host) : host.Normal domains := by
  unfold parseSpecial at h
  split at h
  · unfold parseBracketed at h
    split_ifs at h
    split at h
    case h_1 ps hps =>
      cases h
      obtain ⟨height, hsmall⟩ := Ipv6.parse?_wellFormed hps
      exact .ipv6 height hsmall
    case h_2 => cases h
  · split at h
    case h_1 => cases h
    case h_2 name hname =>
      split_ifs at h with hchars hempty hnumeric
      · split at h
        case h_1 n hn =>
          cases h
          exact .ipv4 (Ipv4.parse?_lt hn)
        case h_2 => cases h
      · cases h
        exact .name (by simpa using hempty) (by simpa using hchars) (hdomains.stable _ _ hname)
          (by simpa using hnumeric)

/-! ### Written hosts -/

/-- The characters of written hosts. -/
def Written (c : Char) : Prop := forbiddenInName c = false ∨ c ∈ [':', '[', ']']

/-- An address stands for itself: it is in ASCII, and nothing in it is forbidden, lowered or encoded. -/
theorem plain_of_mem_ipv4 {n : Nat} {c : Char} (hc : c ∈ Ipv4.text n) :
    c.toNat < 0x80 ∧ forbiddenInName c = false ∧ c.toLower = c ∧ c ≠ 'x' := by
  have hall : ∀ c ∈ "0123456789abcdef.".toList,
      c.toNat < 0x80 ∧ forbiddenInName c = false ∧ c.toLower = c ∧ c ≠ 'x' :=
    List.all_iff_forall_prop.1 (by decide)
  have hdigits : "0123456789abcdef".toList ⊆ "0123456789abcdef.".toList := by decide
  rw [Ipv4.text_eq] at hc
  rcases Text.mem_of_mem_joined hc with rfl | ⟨p, hp, hc⟩
  · exact hall _ (by decide)
  · obtain ⟨m, _, rfl⟩ := List.mem_map.1 hp
    rw [Ipv4.decimal, toList_toString] at hc
    exact hall c (hdigits (Ipv4.mem_toDigits (b := 10) (by decide) (by decide) hc))

theorem map_toLower_ipv4 (n : Nat) : (Ipv4.text n).map Char.toLower = Ipv4.text n :=
  (List.map_congr_left fun _ hc => (plain_of_mem_ipv4 hc).2.2.1).trans (List.map_id' _)

theorem convert?_ipv4 (hdomains : domains.Standard) (n : Nat) :
    domains.convert? (utf8 (Ipv4.text n)) = some (Ipv4.text n) := by
  have hchars : ∀ c ∈ Ipv4.text n, c.toNat < 0x80 ∧ forbiddenInName c = false := fun c hc =>
    ⟨(plain_of_mem_ipv4 hc).1, (plain_of_mem_ipv4 hc).2.1⟩
  have hplain : hasEncodedLabel (Ipv4.text n) = false := by
    refine hasEncodedLabel_of_notMem ?_
    rw [map_toLower_ipv4]
    exact fun hx => (plain_of_mem_ipv4 hx).2.2.2 rfl
  rw [hdomains.ascii _ hchars hplain, map_toLower_ipv4]

theorem mem_ipv6_text {ps : List Nat} {c : Char} (hc : c ∈ Ipv6.text ps) :
    c ∈ "0123456789abcdef:".toList := by
  have hdigits : "0123456789abcdef".toList ⊆ "0123456789abcdef:".toList := by decide
  have hgroups {ps : List Nat} {c : Char} (hc : c ∈ Ipv6.groups ps) : c ∈ "0123456789abcdef:".toList := by
    rcases Text.mem_of_mem_joined hc with rfl | ⟨p, hp, hc⟩
    · decide
    · obtain ⟨m, _, rfl⟩ := List.mem_map.1 hp
      exact hdigits (Ipv4.mem_toDigits (b := 16) (by decide) (by decide) hc)
  have hcolons : [':', ':'] ⊆ "0123456789abcdef:".toList := by decide
  unfold Ipv6.text at hc
  dsimp only at hc
  split_ifs at hc
  · rw [List.mem_append, List.mem_append] at hc
    rcases hc with (hc | hc) | hc
    · exact hgroups hc
    · exact hcolons hc
    · exact hgroups hc
  · exact hgroups hc

namespace Normal

variable {host : Host}

theorem written (h : host.Normal domains) {c : Char} (hc : c ∈ host.text) : Written c := by
  cases h with
  | name _ hchars _ _ => exact .inl (hchars c hc)
  | ipv4 _ => exact .inl (plain_of_mem_ipv4 hc).2.1
  | ipv6 _ _ =>
      have hall : ∀ c ∈ "0123456789abcdef:".toList, forbiddenInName c = false ∨ c ∈ [':', '[', ']'] :=
        List.all_iff_forall_prop.1 (by decide)
      rw [Host.text, List.cons_append, List.mem_cons, List.mem_append, List.mem_singleton] at hc
      rcases hc with rfl | hc | rfl
      · exact .inr (by decide)
      · exact hall c (mem_ipv6_text hc)
      · exact .inr (by decide)

theorem text_ne_nil (h : host.Normal domains) : host.text ≠ [] := by
  cases h with
  | name hne _ _ _ => exact hne
  | ipv4 _ =>
      rw [Host.text, Ipv4.text_eq]
      simp [Ipv4.bytes, Text.joined]
  | ipv6 _ _ => simp [Host.text]

theorem isEmpty_eq (h : host.Normal domains) : host.isEmpty = false := by
  cases h with
  | name hne _ _ _ => simpa [isEmpty] using hne
  | ipv4 _ => rfl
  | ipv6 _ _ => rfl

end Normal

theorem parseSpecial_of_converted (hne : cs ≠ []) (hchars : ∀ c ∈ cs, forbiddenInName c = false)
    (hconverted : domains.convert? (utf8 cs) = some cs) :
    parseSpecial domains cs = if Ipv4.isNumeric cs then
        match Ipv4.parse? cs with
        | some address => .ok (.ipv4 address)
        | none => .error .invalidIpv4
      else .ok (.name cs) := by
  have hbracket : ∀ rest, cs ≠ '[' :: rest := by
    rintro rest rfl
    exact absurd (hchars '[' List.mem_cons_self) (by decide)
  have hpercent : '%' ∉ cs := fun hc => absurd (hchars '%' hc) (by decide)
  have hany : cs.any forbiddenInName = false := by simpa using hchars
  have hempty : cs.isEmpty = false := by simpa using hne
  rw [parseSpecial]
  · simp only [decode_of_notMem hpercent, hconverted, hany, hempty]
    rfl
  · exact hbracket

/-- A host reads back. -/
theorem parseSpecial_text (hdomains : domains.Standard) {host : Host} (h : host.Normal domains) :
    parseSpecial domains host.text = .ok host := by
  cases h with
  | name hne hchars hconverted hword =>
      rw [Host.text, parseSpecial_of_converted hne hchars hconverted, hword]
      rfl
  | @ipv4 n hsmall =>
      have hnormal : (Host.ipv4 n).Normal domains := .ipv4 hsmall
      have hne : Ipv4.text n ≠ [] := hnormal.text_ne_nil
      rw [Host.text, parseSpecial_of_converted hne (fun c hc => (plain_of_mem_ipv4 hc).2.1)
        (convert?_ipv4 hdomains n), Ipv4.isNumeric_text, Ipv4.parse?_text hsmall]
      rfl
  | @ipv6 ps height hsmall =>
      simp [Host.text, parseSpecial, parseBracketed, Ipv6.parse?_text height hsmall]

/-! ### Where a host ends -/

theorem splitHost_append {bracketed : Bool} {rest : List Char}
    (h : ∀ c ∈ cs, c ≠ '[' ∧ c ≠ ']' ∧ (bracketed = false → c ≠ ':')) :
    splitHost bracketed (cs ++ rest) =
      (cs ++ (splitHost bracketed rest).1, (splitHost bracketed rest).2) := by
  induction cs with
  | nil => rfl
  | cons c cs ih =>
      obtain ⟨⟨hopen, hclose, hcolon⟩, hcs⟩ := List.forall_mem_cons.1 h
      have hin : ¬ (c = ':' ∧ bracketed = false) := fun hc => hcolon hc.2 hc.1
      rw [List.cons_append, splitHost, if_neg hin, if_neg hopen, if_neg hclose]
      dsimp only
      rw [ih hcs]
      rfl

/-- After a host stands nothing or a colon. -/
theorem Normal.splitHost_text {host : Host} (h : host.Normal domains) {rest : List Char}
    (hrest : rest = [] ∨ ∃ digits, rest = ':' :: digits) :
    splitHost false (host.text ++ rest) = (host.text, rest) := by
  have hstop : splitHost false rest = ([], rest) := by
    rcases hrest with rfl | ⟨digits, rfl⟩
    · rfl
    · simp [splitHost]
  have hplain {cs : List Char} (hcs : ∀ c ∈ cs, forbiddenInName c = false) :
      splitHost false (cs ++ rest) = (cs, rest) := by
    have hnone : ∀ c, forbiddenInName c = false → c ≠ '[' ∧ c ≠ ']' ∧ (false = false → c ≠ ':') := by
      rintro c hc
      refine ⟨?_, ?_, fun _ => ?_⟩
      all_goals
        rintro rfl
        revert hc
        decide
    rw [splitHost_append fun c hc => hnone c (hcs c hc), hstop, List.append_nil]
  cases h with
  | name _ hchars _ _ => exact hplain hchars
  | ipv4 _ => exact hplain fun c hc => (plain_of_mem_ipv4 hc).2.1
  | @ipv6 ps _ _ =>
      -- Colons within the brackets are part of the host.
      have hinside : ∀ c ∈ Ipv6.text ps, c ≠ '[' ∧ c ≠ ']' ∧ (true = false → c ≠ ':') := by
        have hall : ∀ c ∈ "0123456789abcdef:".toList, c ≠ '[' ∧ c ≠ ']' :=
          List.all_iff_forall_prop.1 (by decide)
        exact fun c hc => ⟨(hall c (mem_ipv6_text hc)).1, (hall c (mem_ipv6_text hc)).2, nofun⟩
      have hclose : splitHost true (']' :: rest) = ([']'], rest) := by
        simp [splitHost, hstop]
      have hopen : splitHost true (Ipv6.text ps ++ ']' :: rest) = (Ipv6.text ps ++ [']'], rest) := by
        rw [splitHost_append hinside, hclose]
      simp [Host.text, splitHost, hopen]

end Host
end Url
end TieredPool
