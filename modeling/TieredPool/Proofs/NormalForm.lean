import TieredPool.Proofs.Hosts

/-!
# NormalForm — special URLs read back

Parsing brings a URL of a special scheme into a form of its own: letters of the host in lower case, no
default port, no steps in the path, and everything escaped that has to be. A URL in that form reads back
from its text.

* `Url.Segment`, `parsePath_joined`, `parsePath_spec` — paths.
* `Url.Authority.Normal`, `parseAuthority_text`, `normal_of_parseAuthority` — authorities.
* `Url.Normal`, `parseChars_chars`, `normal_of_parse` — URLs.
-/

namespace TieredPool
namespace Url

variable {domains : DomainToAscii} {cs : List Char} {parts : List (List Char)} {scheme : List Char}

/-! ## Paths -/

/-- A segment of a path as it is written. -/
structure Segment (s : List Char) : Prop where
  clean : Clean pathSet s
  whole : ∀ c ∈ s, isSlash .special c = false
  single : isSingleDot s = false
  double : isDoubleDot s = false

theorem Segment.slash_notMem {s : List Char} (h : Segment s) : '/' ∉ s :=
  fun hc => absurd (h.whole '/' hc) (by decide)

theorem segment_nil : Segment [] := ⟨nofun, nofun, rfl, rfl⟩

theorem isBreak_of_clean (h : Clean pathSet cs) : ∀ c ∈ cs, isBreak c = false := by
  intro c hc
  have hset := h c hc
  unfold isBreak
  refine Bool.eq_false_iff.2 fun hbreak => ?_
  simp only [Bool.or_eq_true, beq_iff_eq] at hbreak
  rcases hbreak with (rfl | rfl) | rfl
  all_goals
    revert hset
    decide

theorem dropBreaks_eq (h : ∀ c ∈ cs, isBreak c = false) : dropBreaks cs = cs :=
  List.filter_eq_self.2 fun c hc => by simp [h c hc]

/-- A piece of a path that is no step becomes a segment. -/
theorem segment_encode (hwhole : ∀ c ∈ cs, isSlash .special c = false) (hsingle : isSingleDot cs = false)
    (hdouble : isDoubleDot cs = false) : Segment (encode pathSet cs) := by
  have hspares : SparesEscapes pathSet := by decide
  have hescapes : isSlash .special '%' = false ∧ ∀ n < 16, isSlash .special (hexDigit n) = false := by decide
  -- If it were a step now, nothing would have been escaped.
  have hdots (h : isSingleDot (encode pathSet cs) = true ∨ isDoubleDot (encode pathSet cs) = true) :
      encode pathSet cs = cs := (clean_of_dots (by decide) (mem_dotTexts h)).encode
  refine ⟨clean_encode hspares cs, fun c hc => ?_, ?_, ?_⟩
  · rcases mem_encode hc with ⟨hc, _⟩ | rfl | ⟨n, hn, rfl⟩
    · exact hwhole c hc
    · exact hescapes.1
    · exact hescapes.2 n hn
  · refine Bool.eq_false_iff.2 fun h => ?_
    rw [hdots (.inl h), hsingle] at h
    cases h
  · refine Bool.eq_false_iff.2 fun h => ?_
    rw [hdots (.inr h), hdouble] at h
    cases h

namespace Trail

variable {t : Trail}

theorem follow_segment (h : Segment cs) (last : Bool) (t : Trail) :
    t.follow .special last cs = { t with done := cs :: t.done } := by
  simp [follow, place, dropBreaks_eq (isBreak_of_clean h.clean), h.single, h.double, h.clean.encode]

theorem followAll_segments (h : ∀ s ∈ parts, Segment s) (t : Trail) :
    t.followAll .special parts = { t with done := parts.reverse ++ t.done } := by
  induction parts generalizing t with
  | nil => rfl
  | cons s parts ih =>
      rw [List.forall_mem_cons] at h
      cases hrest : parts with
      | nil => simp [followAll, follow_segment h.1]
      | cons s' rest =>
          rw [followAll, ← hrest, follow_segment h.1, ih h.2]
          · simp
          · simp

/-- What has been followed is made of segments, and there is one once the last piece has been. -/
theorem follow_spec (last : Bool) (hcs : ∀ c ∈ cs, isSlash .special c = false)
    (ht : ∀ s ∈ t.done, Segment s) :
    (∀ s ∈ (t.follow .special last cs).done, Segment s) ∧
      (last = true → (t.follow .special last cs).done ≠ []) := by
  have hcs' : ∀ c ∈ dropBreaks cs, isSlash .special c = false := fun c hc => hcs c (List.mem_filter.1 hc).1
  have hmove {done : List (List Char)} (hdone : ∀ s ∈ done, Segment s) :
      (∀ s ∈ (t.moveTo done last).done, Segment s) ∧ (last = true → (t.moveTo done last).done ≠ []) := by
    cases last with
    | false => exact ⟨hdone, nofun⟩
    | true => exact ⟨List.forall_mem_cons.2 ⟨segment_nil, hdone⟩, fun _ => List.cons_ne_nil _ _⟩
  -- Going up takes a segment away at most.
  have hup : ∀ s ∈ goUp t.done, Segment s := by
    intro s hs
    unfold goUp at hs
    split at hs
    · cases hs
    · rename_i hdone
      split_ifs at hs
      · exact ht s (hdone ▸ hs)
      · exact ht s (hdone ▸ List.mem_cons_of_mem _ hs)
  cases hdouble : isDoubleDot (dropBreaks cs) with
  | true => simpa [follow, hdouble] using hmove hup
  | false =>
      cases hsingle : isSingleDot (dropBreaks cs) with
      | true => simpa [follow, hdouble, hsingle] using hmove ht
      | false =>
          have hplaced : t.follow .special last cs =
              { t with done := encode pathSet (dropBreaks cs) :: t.done } := by
            simp [follow, hdouble, hsingle, place]
          rw [hplaced]
          exact ⟨List.forall_mem_cons.2 ⟨segment_encode hcs' hsingle hdouble, ht⟩,
            fun _ => List.cons_ne_nil _ _⟩

theorem followAll_spec (hparts : ∀ p ∈ parts, ∀ c ∈ p, isSlash .special c = false)
    (ht : ∀ s ∈ t.done, Segment s) :
    (∀ s ∈ (t.followAll .special parts).done, Segment s) ∧
      (parts ≠ [] → (t.followAll .special parts).done ≠ []) := by
  induction parts generalizing t with
  | nil => exact ⟨ht, fun h => absurd rfl h⟩
  | cons p parts ih =>
      rw [List.forall_mem_cons] at hparts
      cases hrest : parts with
      | nil =>
          obtain ⟨hall, hne⟩ := follow_spec true hparts.1 ht
          exact ⟨hall, fun _ => hne rfl⟩
      | cons p' rest =>
          obtain ⟨hall, hne⟩ := ih hparts.2 (follow_spec false hparts.1 ht).1
          rw [followAll, ← hrest]
          · exact ⟨hall, fun _ => hne (by simp [hrest])⟩
          · simp

end Trail

/-- The segments of a path read back. -/
theorem parsePath_joined (hne : parts ≠ []) (h : ∀ s ∈ parts, Segment s) :
    (parsePath .special (Text.joined ['/'] parts)).segments = parts := by
  rw [parsePath, Text.pieces_joined (by decide) hne fun s hs => (h s hs).whole, Trail.followAll_segments h]
  simp [Trail.segments]

/-- A path comes to segments, of which there is one at least. -/
theorem parsePath_spec (cs : List Char) :
    (parsePath .special cs).segments ≠ [] ∧ ∀ s ∈ (parsePath .special cs).segments, Segment s := by
  have hpieces : ∀ p ∈ Text.pieces (isSlash .special) cs, ∀ c ∈ p, isSlash .special c = false :=
    fun p hp c hc => (Text.mem_of_mem_pieces hp hc).2
  obtain ⟨hall, hne⟩ := Trail.followAll_spec (t := {}) hpieces (by simp)
  constructor
  · simpa [Trail.segments, parsePath] using hne (Text.pieces_ne_nil _ cs)
  · intro s hs
    exact hall s (List.mem_reverse.1 hs)

/-! ## Authorities -/

/-- An authority as special schemes have it. -/
structure Authority.Normal (domains : DomainToAscii) (scheme : List Char) (a : Authority) : Prop where
  username : Clean userinfoSet a.username
  password : Clean userinfoSet a.password
  host : a.host.Normal domains
  port : ∀ p, a.port = some p → p ≤ 65535 ∧ defaultPort? scheme ≠ some p

/-- The port as it is written, with its colon. -/
def portText : Option Nat → List Char
  | some p => ':' :: (toString p).toList
  | none => []

theorem Authority.text_eq (a : Authority) : a.text = a.credentials ++ (a.host.text ++ portText a.port) := by
  cases hport : a.port <;> simp [text, portText, hport]

/-- The text in front of the `@`. -/
def userinfo (username password : List Char) : List Char :=
  username ++ if password.isEmpty then [] else ':' :: password

theorem splitLastAt_append {before after : List Char} (hafter : '@' ∉ after) :
    splitLastAt (before ++ '@' :: after) = some (before, after) := by
  have hall : ∀ c ∈ after.reverse, (c != '@') = true :=
    bne_of_notMem fun hc => hafter (List.mem_reverse.1 hc)
  have hreverse : (before ++ '@' :: after).reverse = after.reverse ++ '@' :: before.reverse := by simp
  simp [splitLastAt, hreverse, List.takeWhile_append_of_pos hall, List.dropWhile_append_of_pos hall]

theorem splitLastAt_of_notMem (h : '@' ∉ cs) : splitLastAt cs = none := by
  simp [splitLastAt, h]

/-- User name and password read back. -/
theorem parseCredentials_userinfo {username password : List Char} (husername : Clean userinfoSet username)
    (hpassword : Clean userinfoSet password) :
    parseCredentials (userinfo username password) = (username, password) := by
  have hall : ∀ c ∈ username, (c != ':') = true :=
    bne_of_notMem fun hc => absurd (husername ':' hc) (by decide)
  cases password with
  | nil =>
      have hnone : Url.encode userinfoSet [] = [] := rfl
      simp [userinfo, parseCredentials, List.takeWhile_eq_self_iff.2 hall, List.dropWhile_eq_nil_iff.2 hall,
        husername.encode, hnone]
  | cons c rest =>
      simp [userinfo, parseCredentials, List.takeWhile_append_of_pos hall, List.dropWhile_append_of_pos hall,
        husername.encode, hpassword.encode]

theorem parsePort_text {p : Nat} (hle : p ≤ 65535) (hdefault : defaultPort? scheme ≠ some p) :
    parsePort scheme (toString p).toList = .ok (some p, []) := by
  have hall : ∀ c ∈ (toString p).toList, c.isDigit = true := fun c hc => isDigit_of_mem_toString hc
  have hfits : ¬ 65535 < p := by omega
  simp only [parsePort, List.takeWhile_eq_self_iff.2 hall, List.dropWhile_eq_nil_iff.2 hall,
    Text.digitsValue_toString, if_neg hfits]
  simp [hdefault]

theorem portText_cases (port : Option Nat) : portText port = [] ∨ ∃ digits, portText port = ':' :: digits := by
  cases port with
  | none => exact .inl rfl
  | some p => exact .inr ⟨_, rfl⟩

theorem at_notMem_hostPort {host : Host} (h : host.Normal domains) (port : Option Nat) :
    '@' ∉ host.text ++ portText port := by
  intro hc
  rcases List.mem_append.1 hc with hc | hc
  · rcases h.written hc with hc | hc <;> revert hc <;> decide
  · cases port with
    | none => cases hc
    | some p =>
        rcases List.mem_cons.1 hc with hc | hc
        · revert hc
          decide
        · exact absurd (isDigit_of_mem_toString hc) (by decide)

theorem splitLastAt_text {a : Authority} (h : a.Normal domains scheme) :
    (splitLastAt a.text).getD ([], a.text) =
      (userinfo a.username a.password, a.host.text ++ portText a.port) := by
  have hat := at_notMem_hostPort h.host a.port
  rw [a.text_eq]
  unfold Authority.credentials
  cases hhas : a.hasCredentials with
  | true =>
      have hsign : (if true = true then
          a.username ++ (if a.password.isEmpty then [] else ':' :: a.password) ++ ['@'] else []) ++
            (a.host.text ++ portText a.port) =
          userinfo a.username a.password ++ '@' :: (a.host.text ++ portText a.port) := by
        simp [userinfo]
      rw [hsign, splitLastAt_append hat]
      rfl
  | false =>
      -- Nothing stands in front of the host, which itself holds no sign.
      have hnone : a.username = [] ∧ a.password = [] := by
        simpa [Authority.hasCredentials] using hhas
      have hsame : (if false = true then
          a.username ++ (if a.password.isEmpty then [] else ':' :: a.password) ++ ['@'] else []) ++
            (a.host.text ++ portText a.port) = a.host.text ++ portText a.port := by simp
      rw [hsame, splitLastAt_of_notMem hat, hnone.1, hnone.2]
      rfl

/-- An authority reads back. -/
theorem parseAuthority_text (hdomains : domains.Standard) (hspecial : schemeKind scheme = .special)
    {a : Authority} (h : a.Normal domains scheme) (last : Bool) :
    parseAuthority domains scheme last a.text = .ok (a, []) := by
  have hne : a.host.text ++ portText a.port ≠ [] := by simp [h.host.text_ne_nil]
  have hsplit := splitLastAt_text h
  obtain ⟨username, password, host, port⟩ := a
  obtain ⟨husername, hpassword, hhost, hport⟩ := h
  unfold parseAuthority
  simp only [hsplit, hspecial, parseCredentials_userinfo husername hpassword,
    hhost.splitHost_text (portText_cases port), Host.parseSpecial_text hdomains hhost, hne, hhost.text_ne_nil]
  cases port with
  | none => simp [portText, hhost.isEmpty_eq, Bind.bind, Except.bind, Pure.pure, Except.pure]
  | some p =>
      have hp := parsePort_text (hport p rfl).1 (hport p rfl).2
      rw [toList_toString] at hp
      simp [portText, hhost.isEmpty_eq, hp, Bind.bind, Except.bind, Pure.pure, Except.pure]

theorem exists_of_bind_eq_ok {ε β γ : Type} {x : Except ε β} {f : β → Except ε γ} {c : γ}
    (h : (x >>= f) = .ok c) : ∃ b, x = .ok b ∧ f b = .ok c := by
  cases x with
  | error e => cases h
  | ok b => exact ⟨b, rfl, h⟩

/-- A check that has been passed. -/
theorem of_guard {ε γ : Type} {p : Prop} [Decidable p] {e : ε} {f : Unit → Except ε γ} {c : γ}
    (h : (if p then throw e >>= f else f ()) = .ok c) : ¬ p ∧ f () = .ok c := by
  split at h
  · cases h
  · exact ⟨‹_›, h⟩

theorem of_parsePort {digits rest : List Char} {port : Option Nat}
    (h : parsePort scheme digits = .ok (port, rest)) :
    ∀ p, port = some p → p ≤ 65535 ∧ defaultPort? scheme ≠ some p := by
  rintro p rfl
  simp only [parsePort] at h
  split_ifs at h with hlarge _ hdefault
  · simp at h
  · simp only [Except.ok.injEq, Prod.mk.injEq, Option.some.injEq] at h
    rw [not_or] at hdefault
    rw [← h.1]
    exact ⟨by omega, hdefault.2⟩

/-- An authority comes to one in normal form. -/
theorem normal_of_parseAuthority (hdomains : domains.Standard) (hspecial : schemeKind scheme = .special)
    {last : Bool} {a : Authority} {rest : List Char}
    (h : parseAuthority domains scheme last cs = .ok (a, rest)) : a.Normal domains scheme := by
  have hspares : SparesEscapes userinfoSet := by decide
  unfold parseAuthority at h
  simp only [hspecial] at h
  generalize (splitLastAt cs).getD ([], cs) = split at h
  -- Of the checks on the way only those of the host and of the port matter.
  obtain ⟨-, h⟩ := of_guard h
  obtain ⟨-, h⟩ := of_guard h
  rw [if_pos trivial] at h
  obtain ⟨host, hhost, h⟩ := exists_of_bind_eq_ok h
  obtain ⟨-, h⟩ := of_guard h
  have hnormal := Host.normal_of_parseSpecial hdomains hhost
  split at h
  case h_1 digits _ =>
    obtain ⟨⟨port, extra⟩, hport, h⟩ := exists_of_bind_eq_ok h
    obtain ⟨-, h⟩ := of_guard h
    cases h
    exact ⟨clean_encode hspares _, clean_encode hspares _, hnormal, of_parsePort hport⟩
  case h_2 =>
    rw [pure_bind] at h
    obtain ⟨-, h⟩ := of_guard h
    cases h
    exact ⟨clean_encode hspares _, clean_encode hspares _, hnormal, fun _ hp => by cases hp⟩

/-! ## URLs -/

/-- A URL of a special scheme as parsing leaves it. -/
inductive Normal (domains : DomainToAscii) : Url → Prop
  | mk {scheme : List Char} {a : Authority} {parts : List (List Char)} {q f : Option (List Char)}
      (special : schemeKind scheme = .special) (authority : a.Normal domains scheme)
      (nonempty : parts ≠ []) (segments : ∀ s ∈ parts, Segment s)
      (query : ∀ cs, q = some cs → Clean specialQuerySet cs)
      (fragment : ∀ cs, f = some cs → Clean fragmentSet cs) :
      Normal domains { scheme, authority := some a, path := .segments parts, query := q, fragment := f }

theorem parseSpecialBody_spec (hdomains : domains.Standard) (hspecial : schemeKind scheme = .special)
    {last : Bool} {a : Authority} {p : Path} (h : parseSpecialBody domains scheme last cs = .ok (a, p)) :
    a.Normal domains scheme ∧ ∃ parts, p = .segments parts ∧ parts ≠ [] ∧ ∀ s ∈ parts, Segment s := by
  obtain ⟨⟨a', rest⟩, ha, h⟩ := exists_of_bind_eq_ok h
  cases h
  exact ⟨normal_of_parseAuthority hdomains hspecial ha, _, rfl, (parsePath_spec _).1, (parsePath_spec _).2⟩

theorem clean_of_map_encode {set : Char → Bool} (hset : SparesEscapes set) {part : Option (List Char)} :
    ∀ q, part.map (encode set) = some q → Clean set q := by
  intro q hq
  obtain ⟨cs, _, rfl⟩ := Option.map_eq_some_iff.1 hq
  exact clean_encode hset cs

/-- What is parsed is in normal form. -/
theorem normal_of_parse (hdomains : domains.Standard) {s : String} {u : Url} (h : parse domains s = .ok u)
    (hspecial : schemeKind u.scheme = .special) : u.Normal domains := by
  unfold parse parseChars at h
  dsimp only at h
  split at h
  case h_1 => cases h
  case h_2 scheme rest _ =>
    split at h
    case h_1 hkind =>
      obtain ⟨⟨a, p⟩, hbody, h⟩ := exists_of_bind_eq_ok h
      rw [pure_bind, hkind, if_neg (by decide)] at h
      cases h
      obtain ⟨ha, parts, rfl, hne, hparts⟩ := parseSpecialBody_spec hdomains hkind hbody
      exact .mk hkind ha hne hparts (clean_of_map_encode (by decide)) (clean_of_map_encode (by decide))
    -- No other scheme is special.
    case h_2 hkind =>
      obtain ⟨_, _, h⟩ := exists_of_bind_eq_ok h
      cases h
      rw [hkind] at hspecial
      cases hspecial
    case h_3 hkind =>
      obtain ⟨_, _, h⟩ := exists_of_bind_eq_ok h
      cases h
      rw [hkind] at hspecial
      cases hspecial

/-! ## Characters of a text -/

/-- Controls and blanks are not visible. -/
def Visible (c : Char) : Prop := 0x20 < c.toNat

instance : DecidablePred Visible := fun c => inferInstanceAs (Decidable (0x20 < c.toNat))

theorem visible_of_unescaped {c : Char} (h : fragmentSet c = false) : Visible c := by
  have hblank : c.toNat ≠ ' '.toNat := by
    intro heq
    rw [Char.toNat_inj.1 heq] at h
    cases h
  change c.toNat ≠ 0x20 at hblank
  simp [fragmentSet, controlSet] at h
  unfold Visible
  omega

/-- A character that ends neither an authority nor what stands before a query. -/
structure Plain (c : Char) : Prop where
  inner : isSlash .special c = false
  body : isTail c = false
  visible : Visible c

theorem plain_of_userinfo {c : Char} (h : userinfoSet c = false) : Plain c := by
  have hpath : pathSet c = false ∧ c ≠ '/' ∧ c ≠ '\\' := by
    simp [userinfoSet] at h
    grind
  obtain ⟨hpath, hslash, hback⟩ := hpath
  have hfragment : fragmentSet c = false ∧ c ≠ '?' ∧ c ≠ '#' := by
    simp [pathSet] at hpath
    grind
  exact ⟨by simp [isSlash, hslash, hback], by simp [isTail, hfragment.2.1, hfragment.2.2],
    visible_of_unescaped hfragment.1⟩

theorem plain_of_written {c : Char} (h : Host.Written c) : Plain c := by
  rcases h with h | h
  · simp [Host.forbiddenInName] at h
    refine ⟨?_, ?_, ?_⟩
    · simp [isSlash]; grind
    · simp [isTail]; grind
    · unfold Visible; omega
  · simp at h
    rcases h with rfl | rfl | rfl
    all_goals exact ⟨by decide, by decide, by decide⟩

theorem mem_credentials {a : Authority} {c : Char} (hc : c ∈ a.credentials) :
    c ∈ a.username ∨ c ∈ a.password ∨ c = ':' ∨ c = '@' := by
  unfold Authority.credentials at hc
  split_ifs at hc
  · simp only [List.mem_append, List.mem_singleton, List.not_mem_nil, or_false] at hc
    exact hc.elim .inl fun h => .inr (.inr (.inr h))
  · simp only [List.mem_append, List.mem_cons, List.not_mem_nil, or_false] at hc
    rcases hc with (h | h | h) | h
    · exact .inl h
    · exact .inr (.inr (.inl h))
    · exact .inr (.inl h)
    · exact .inr (.inr (.inr h))
  · cases hc

theorem plain_of_mem_authority {a : Authority} (h : a.Normal domains scheme) {c : Char}
    (hc : c ∈ a.text) : Plain c := by
  have hcolon : Plain ':' := plain_of_written (.inr (by decide))
  have hat : Plain '@' := ⟨by decide, by decide, by decide⟩
  have hdigit : ∀ c ∈ "0123456789abcdef".toList, Host.forbiddenInName c = false :=
    List.all_iff_forall_prop.1 (by decide)
  rw [a.text_eq, List.mem_append, List.mem_append] at hc
  rcases hc with hc | hc | hc
  · rcases mem_credentials hc with hc | hc | rfl | rfl
    · exact plain_of_userinfo (h.username c hc)
    · exact plain_of_userinfo (h.password c hc)
    · exact hcolon
    · exact hat
  · exact plain_of_written (h.host.written hc)
  · cases hp : a.port with
    | none =>
        rw [hp] at hc
        cases hc
    | some p =>
        rw [hp] at hc
        rcases List.mem_cons.1 hc with rfl | hc
        · exact hcolon
        · rw [toList_toString] at hc
          exact plain_of_written (.inl (hdigit c (Ipv4.mem_toDigits (b := 10) (by decide) (by decide) hc)))

theorem authority_text_ne_nil {a : Authority} (h : a.Normal domains scheme) : a.text ≠ [] := by
  simp [a.text_eq, h.host.text_ne_nil]

theorem mem_path_text (h : ∀ s ∈ parts, Segment s) {c : Char} (hc : c ∈ (Path.segments parts).text) :
    isTail c = false ∧ Visible c := by
  obtain ⟨s, hs, hc⟩ := List.mem_flatMap.1 hc
  rcases List.mem_cons.1 hc with rfl | hc
  · exact ⟨by decide, by decide⟩
  · have hpath := (h s hs).clean c hc
    simp [pathSet] at hpath
    refine ⟨?_, visible_of_unescaped hpath.1⟩
    simp [isTail]
    grind

/-! ## Reading a text back -/

theorem trim_eq (h : ∀ c ∈ cs, Visible c) : trim cs = cs := by
  have hdrop {cs : List Char} (h : ∀ c ∈ cs, Visible c) :
      cs.dropWhile (fun c => decide (c.toNat ≤ 0x20)) = cs := by
    cases cs with
    | nil => rfl
    | cons c cs =>
        have hc : 0x20 < c.toNat := h c List.mem_cons_self
        exact List.dropWhile_cons_of_neg (by simpa using hc)
  unfold trim
  dsimp only
  rw [hdrop h, hdrop (fun c hc => h c (List.mem_reverse.1 hc)), List.reverse_reverse]

theorem isBreak_of_visible {c : Char} (h : Visible c) : isBreak c = false := by
  refine Bool.eq_false_iff.2 fun hbreak => ?_
  simp only [isBreak, Bool.or_eq_true, beq_iff_eq] at hbreak
  rcases hbreak with (rfl | rfl) | rfl
  all_goals
    revert h
    decide

/-- The schemes that are special. -/
def specialSchemes : List (List Char) := ["http", "https", "ws", "wss", "ftp"].map String.toList

theorem mem_specialSchemes (h : schemeKind scheme = .special) : scheme ∈ specialSchemes := by
  unfold schemeKind at h
  dsimp only at h
  split_ifs at h with hspecial
  have hlist {name : String} (heq : String.ofList scheme = name) : scheme = name.toList := by
    rw [← heq, String.toList_ofList]
  simp only [specialSchemes, List.map_cons, List.map_nil, List.mem_cons, List.not_mem_nil, or_false]
  rcases hspecial with h | h | h | h | h
  · exact .inl (hlist h)
  · exact .inr (.inl (hlist h))
  · exact .inr (.inr (.inl (hlist h)))
  · exact .inr (.inr (.inr (.inl (hlist h))))
  · exact .inr (.inr (.inr (.inr (hlist h))))

theorem splitScheme?_special (h : schemeKind scheme = .special) (rest : List Char) :
    splitScheme? (scheme ++ ':' :: rest) = some (scheme, rest) := by
  have hall : ∀ s ∈ specialSchemes, s.all isSchemeChar = true ∧ s.map Char.toLower = s ∧
      s.head?.any Char.isAlpha = true := by decide
  obtain ⟨hchars, hlower, halpha⟩ := hall scheme (mem_specialSchemes h)
  rw [List.all_eq_true] at hchars
  have hcolon : isSchemeChar ':' = false := by decide
  cases hscheme : scheme with
  | nil => simp [hscheme] at halpha
  | cons first name =>
      rw [hscheme] at hchars hlower halpha
      have htake : (first :: name ++ ':' :: rest).takeWhile isSchemeChar = first :: name := by
        rw [List.takeWhile_append_of_pos hchars, List.takeWhile_cons_of_neg (by simp [hcolon]), List.append_nil]
      have hdrop : (first :: name ++ ':' :: rest).dropWhile isSchemeChar = ':' :: rest := by
        rw [List.dropWhile_append_of_pos hchars, List.dropWhile_cons_of_neg (by simp [hcolon])]
      have hfirst : first.isAlpha = true := by simpa using halpha
      simp only [splitScheme?, htake, hdrop, if_pos hfirst, hlower]

/-- A text is cut where its query and its fragment begin. -/
theorem cut_append {body : List Char} {q f : Option (List Char)} (hbody : ∀ c ∈ body, isTail c = false)
    (hq : ∀ cs, q = some cs → '#' ∉ cs) :
    cut (body ++ marked '?' q ++ marked '#' f) = { body, query := q, fragment := f } := by
  have hbody' : ∀ c ∈ body, (!isTail c) = true := fun c hc => by simp [hbody c hc]
  have hmarks : isTail '?' = true ∧ isTail '#' = true := by decide
  unfold cut
  simp only [List.append_assoc, List.takeWhile_append_of_pos hbody', List.dropWhile_append_of_pos hbody']
  cases q with
  | none =>
      cases f with
      | none => simp [marked]
      | some f => simp [marked, hmarks]
  | some q =>
      have hquery : ∀ c ∈ q, (c != '#') = true := bne_of_notMem (hq q rfl)
      cases f with
      | none =>
          simp [marked, hmarks, List.takeWhile_eq_self_iff.2 hquery, List.dropWhile_eq_nil_iff.2 hquery]
      | some f =>
          simp [marked, hmarks, List.takeWhile_append_of_pos hquery, List.dropWhile_append_of_pos hquery]

theorem parseSpecialBody_text (hdomains : domains.Standard) (hspecial : schemeKind scheme = .special)
    {a : Authority} (ha : a.Normal domains scheme) (hne : parts ≠ []) (hparts : ∀ s ∈ parts, Segment s)
    (last : Bool) :
    parseSpecialBody domains scheme last ('/' :: '/' :: a.text ++ (Path.segments parts).text) =
      .ok (a, .segments parts) := by
  have hpath : (Path.segments parts).text = '/' :: Text.joined ['/'] parts := Text.flatMap_eq_joined hne
  have hinner : ∀ c ∈ a.text, (!isSlash .special c) = true := fun c hc => by
    simp [(plain_of_mem_authority ha hc).inner]
  have hslash : isSlash .special '/' = true := by decide
  have hbreak : isBreak '/' = false := by decide
  have hstart : ('/' :: '/' :: a.text ++ (Path.segments parts).text).dropWhile (isSlash .special) =
      a.text ++ (Path.segments parts).text := by
    obtain ⟨c, cs, hc⟩ := List.exists_cons_of_ne_nil (authority_text_ne_nil ha)
    have hfirst : isSlash .special c = false := (plain_of_mem_authority ha (hc ▸ List.mem_cons_self)).inner
    simp [hc, hslash, hfirst]
  have htake : (a.text ++ (Path.segments parts).text).takeWhile (!isSlash .special ·) = a.text := by
    rw [List.takeWhile_append_of_pos hinner, hpath, List.takeWhile_cons_of_neg (by simp [hslash]),
      List.append_nil]
  have hdrop : (a.text ++ (Path.segments parts).text).dropWhile (!isSlash .special ·) =
      '/' :: Text.joined ['/'] parts := by
    rw [List.dropWhile_append_of_pos hinner, hpath, List.dropWhile_cons_of_neg (by simp [hslash])]
  have hrest : dropSlash .special ('/' :: Text.joined ['/'] parts) = Text.joined ['/'] parts := by
    simp [dropSlash, afterSlash?, hslash, hbreak]
  unfold parseSpecialBody
  simp only [hstart, htake, hdrop, hrest, parseAuthority_text hdomains hspecial ha,
    parsePath_joined hne hparts]
  rfl

/-- A URL with an authority, as it is written. -/
theorem chars_eq (scheme : List Char) (a : Authority) (p : Path) (q f : Option (List Char)) :
    ({ scheme, authority := some a, path := p, query := q, fragment := f } : Url).chars =
      scheme ++ ':' :: ('/' :: '/' :: a.text ++ p.text ++ marked '?' q ++ marked '#' f) := by
  simp [chars, lead]

theorem visible_of_query {c : Char} (h : specialQuerySet c = false) : Visible c ∧ c ≠ '#' := by
  have hblank : c.toNat ≠ ' '.toNat := by
    intro heq
    rw [Char.toNat_inj.1 heq] at h
    cases h
  change c.toNat ≠ 0x20 at hblank
  simp [specialQuerySet, querySet, controlSet] at h
  exact ⟨by unfold Visible; omega, by grind⟩

theorem visible_of_marked {mark : Char} (hmark : Visible mark) {part : Option (List Char)}
    (hpart : ∀ cs, part = some cs → ∀ c ∈ cs, Visible c) : ∀ c ∈ marked mark part, Visible c := by
  cases part with
  | none => nofun
  | some cs => exact List.forall_mem_cons.2 ⟨hmark, hpart cs rfl⟩

theorem map_encode_of_clean {set : Char → Bool} {part : Option (List Char)}
    (h : ∀ cs, part = some cs → Clean set cs) : part.map (encode set) = part := by
  cases part with
  | none => rfl
  | some cs => rw [Option.map_some, (h cs rfl).encode]

/-- A URL in normal form reads back from its text. -/
theorem parseChars_chars (hdomains : domains.Standard) {u : Url} (h : u.Normal domains) :
    parseChars domains u.chars = .ok u := by
  cases h with
  | @mk scheme a parts q f hspecial ha hne hparts hq hf =>
      have hmark : ∀ c ∈ [':', '/', '?', '#'], Visible c := List.all_iff_forall_prop.1 (by decide)
      have hall : ∀ s ∈ specialSchemes, s.all (fun c => decide (Visible c)) = true := by decide
      have hscheme : ∀ s ∈ specialSchemes, ∀ c ∈ s, Visible c :=
        fun s hs => List.all_iff_forall_prop.1 (hall s hs)
      have hauthority : ∀ c ∈ a.text, Plain c := fun c hc => plain_of_mem_authority ha hc
      have hpath : ∀ c ∈ (Path.segments parts).text, isTail c = false ∧ Visible c :=
        fun c hc => mem_path_text hparts hc
      -- So nothing is trimmed, and no line break dropped.
      have hvisible : ∀ c ∈ scheme ++ ':' :: ('/' :: '/' :: a.text ++ (Path.segments parts).text ++
          marked '?' q ++ marked '#' f), Visible c := by
        simp only [List.forall_mem_append, List.forall_mem_cons]
        exact ⟨hscheme scheme (mem_specialSchemes hspecial), hmark _ (by decide),
          ⟨⟨⟨hmark _ (by decide), hmark _ (by decide), fun c hc => (hauthority c hc).visible⟩,
            fun c hc => (hpath c hc).2⟩,
            visible_of_marked (hmark _ (by decide)) fun cs hcs c hc => (visible_of_query (hq cs hcs c hc)).1⟩,
          visible_of_marked (hmark _ (by decide)) fun cs hcs c hc => visible_of_unescaped (hf cs hcs c hc)⟩
      -- The query and the fragment begin with the first marks there are.
      have hbody : ∀ c ∈ '/' :: '/' :: a.text ++ (Path.segments parts).text, isTail c = false := by
        simp only [List.forall_mem_append, List.forall_mem_cons]
        exact ⟨⟨by decide, by decide, fun c hc => (hauthority c hc).body⟩, fun c hc => (hpath c hc).1⟩
      have hcut := cut_append (f := f) hbody fun cs hcs hsign => (visible_of_query (hq cs hcs _ hsign)).2 rfl
      have hother : ¬ SchemeKind.special = .other := by decide
      rw [chars_eq]
      simp only [parseChars, trim_eq hvisible, dropBreaks_eq fun c hc => isBreak_of_visible (hvisible c hc),
        splitScheme?_special hspecial, hcut, hspecial, parseSpecialBody_text hdomains hspecial ha hne hparts,
        if_neg hother, map_encode_of_clean hq, map_encode_of_clean hf]
      rfl

end Url
end TieredPool
