import Mathlib.Data.List.DropRight
import TieredPool.Proofs.Construction
import TieredPool.Proofs.NormalForm

/-!
# Joining — a path written after the base URL

The base URL of a server is its address in normal form, without slashes at the end, and a path is joined on
as text. So it joins the last part that the address has: its path, if there is neither query nor fragment.

* `Url.extend` — the URL that comes of it; `Url.chars_extend` — its text.
* `Url.Normal.extend` — it is in normal form, and so it reads back.
* `Url.Joined` — a URL whose path alone has been joined on.
* `UrlParser.Follows` — a parser that reads special URLs as the standard has it.
* `urls_extend` — the servers of a valid configuration.
-/

namespace TieredPool

/-- Letters, digits, `-`, `_` and `/`. -/
def isPathChar (c : Char) : Bool := c.isAlphanum || c == '-' || c == '_' || c == '/'

namespace Url

variable {domains : DomainToAscii}

/-! ## The URL with a path written after it -/

/-- A path after the segments, those apart that stand empty at their end. -/
def Path.join (path : List Char) : Path → Path
  | .segments parts => .segments (parts.rdropWhile List.isEmpty ++ Text.pieces (· == '/') path)
  | .plain text => .plain (dropTrailingSlashes text ++ '/' :: path)

/-- A path after a URL, which reaches the last part that the URL has. -/
def extend (path : List Char) (u : Url) : Url :=
  match u.query, u.fragment with
  | _, some f => { u with fragment := some (dropTrailingSlashes f ++ '/' :: path) }
  | some q, none => { u with query := some (dropTrailingSlashes q ++ '/' :: path) }
  | none, none => { u with path := u.path.join path }

@[simp] theorem extend_scheme (path : List Char) (u : Url) : (u.extend path).scheme = u.scheme := by
  unfold extend
  split <;> rfl

@[simp] theorem extend_authority (path : List Char) (u : Url) : (u.extend path).authority = u.authority := by
  unfold extend
  split <;> rfl

/-! ### Slashes at the end -/

theorem dropTrailingSlashes_concat (cs : List Char) :
    dropTrailingSlashes (cs ++ ['/']) = dropTrailingSlashes cs :=
  List.rdropWhile_concat_pos _ _ _ rfl

theorem dropTrailingSlashes_of_last {cs : List Char} {c : Char} (hc : c ≠ '/') :
    dropTrailingSlashes (cs ++ [c]) = cs ++ [c] :=
  List.rdropWhile_concat_neg _ _ _ (by simpa using hc)

theorem dropTrailingSlashes_append {cs before : List Char} {c : Char} (hc : c ≠ '/') :
    dropTrailingSlashes (before ++ c :: cs) = before ++ c :: dropTrailingSlashes cs := by
  induction cs using List.reverseRecOn with
  | nil => exact dropTrailingSlashes_of_last hc
  | append_singleton cs d ih =>
      have hsplit : before ++ c :: (cs ++ [d]) = before ++ c :: cs ++ [d] := by simp
      rw [hsplit]
      by_cases hd : d = '/'
      · subst hd
        rw [dropTrailingSlashes_concat, ih, dropTrailingSlashes_concat]
      · rw [dropTrailingSlashes_of_last hd, dropTrailingSlashes_of_last hd, hsplit]

/-- The slashes at the end of a path are before its empty segments there. -/
theorem dropTrailingSlashes_path {parts : List (List Char)} (h : ∀ s ∈ parts, '/' ∉ s) :
    dropTrailingSlashes (Path.segments parts).text =
      (Path.segments (parts.rdropWhile List.isEmpty)).text := by
  induction parts using List.reverseRecOn with
  | nil => rfl
  | append_singleton parts s ih =>
      rw [List.forall_mem_append] at h
      have htext : (Path.segments (parts ++ [s])).text = (Path.segments parts).text ++ '/' :: s := by
        simp [Path.text]
      rw [htext]
      by_cases hs : s = []
      · subst hs
        rw [List.rdropWhile_concat_pos _ _ _ rfl, ← ih h.1, dropTrailingSlashes_concat]
      · rw [List.rdropWhile_concat_neg _ _ _ (by simpa using hs), htext]
        obtain ⟨init, c, rfl⟩ := (List.eq_nil_or_concat s).resolve_left hs
        have hc : c ≠ '/' := by
          rintro rfl
          exact h.2 _ List.mem_cons_self (by simp)
        rw [List.concat_eq_append, ← List.cons_append, ← List.append_assoc, dropTrailingSlashes_of_last hc]

theorem text_join {parts : List (List Char)} (h : ∀ s ∈ parts, '/' ∉ s) (path : List Char) :
    ((Path.segments parts).join path).text =
      dropTrailingSlashes (Path.segments parts).text ++ '/' :: path := by
  rw [dropTrailingSlashes_path h, ← Text.flatMap_pieces]
  simp [Path.join, Path.text]

/-! ### The text -/

/-- The text of a URL with a path after it. -/
theorem chars_extend {u : Url} (h : u.Normal domains) (path : List Char) :
    (u.extend path).chars = dropTrailingSlashes u.chars ++ '/' :: path := by
  cases h with
  | @mk scheme a parts q f hspecial ha hne hparts hq hf =>
      -- The slashes at the end are those of the last part, as no sign in front of a part is a slash.
      let url (p : Path) (q f : Option (List Char)) : Url :=
        { scheme, authority := some a, path := p, query := q, fragment := f }
      cases f with
      | some f =>
          let before := scheme ++ ':' :: ('/' :: '/' :: a.text ++ (Path.segments parts).text ++ marked '?' q)
          have htext (f : List Char) : (url (.segments parts) q (some f)).chars = before ++ '#' :: f := by
            simp [url, chars_eq, marked, before]
          have hsign : '#' ≠ '/' := by decide
          rw [htext f, dropTrailingSlashes_append hsign, List.append_assoc]
          exact htext _
      | none =>
          cases q with
          | some q =>
              let before := scheme ++ ':' :: ('/' :: '/' :: a.text ++ (Path.segments parts).text)
              have htext (q : List Char) : (url (.segments parts) (some q) none).chars = before ++ '?' :: q := by
                simp [url, chars_eq, marked, before]
              have hsign : '?' ≠ '/' := by decide
              rw [htext q, dropTrailingSlashes_append hsign, List.append_assoc]
              exact htext _
          | none =>
              obtain ⟨init, c, hc⟩ := (List.eq_nil_or_concat a.text).resolve_left (authority_text_ne_nil ha)
              rw [List.concat_eq_append] at hc
              let before := scheme ++ ':' :: '/' :: '/' :: init
              have htext (p : Path) : (url p none none).chars = before ++ c :: p.text := by
                simp [url, chars_eq, marked, before, hc]
              have hlast : c ∈ a.text := by simp [hc]
              have hsign : c ≠ '/' := by
                rintro rfl
                exact absurd (plain_of_mem_authority ha hlast).inner (by decide)
              have hwhole : ∀ s ∈ parts, '/' ∉ s := fun s hs => (hparts s hs).slash_notMem
              rw [htext, dropTrailingSlashes_append hsign, List.append_assoc, List.cons_append,
                ← text_join hwhole]
              exact htext _

/-! ## Normal form -/

theorem unescaped_of_pathChar {c : Char} (h : isPathChar c = true) :
    pathSet c = false ∧ fragmentSet c = false ∧ specialQuerySet c = false ∧ c ≠ '\\' ∧
      c.toLower ≠ '.' ∧ c.toLower ≠ '%' := by
  have hlt : c.toNat < 128 := by
    unfold isPathChar Char.isAlphanum Char.isAlpha Char.isUpper Char.isLower Char.isDigit at h
    simp [UInt32.le_iff_toNat_le] at h
    rcases h with ((h | rfl) | rfl) | rfl
    · omega
    all_goals decide
  revert h
  exact forall_ascii (P := fun c => isPathChar c = true → pathSet c = false ∧ fragmentSet c = false ∧
    specialQuerySet c = false ∧ c ≠ '\\' ∧ c.toLower ≠ '.' ∧ c.toLower ≠ '%') (by decide) hlt

/-- A piece of a path is a segment as it stands. -/
theorem segment_of_piece {path s : List Char} (hpath : ∀ c ∈ path, isPathChar c = true)
    (hs : s ∈ Text.pieces (· == '/') path) : Segment s := by
  have hchar (c : Char) (hc : c ∈ s) : isPathChar c = true ∧ c ≠ '/' := by
    obtain ⟨hmem, hslash⟩ := Text.mem_of_mem_pieces hs hc
    exact ⟨hpath c hmem, by simpa using hslash⟩
  have hdots : ∀ w ∈ dotTexts, '.' ∈ w ∨ '%' ∈ w := by decide
  have hnone : s.map Char.toLower ∉ dotTexts := by
    intro hmem
    rcases hdots _ hmem with hc | hc
    all_goals
      obtain ⟨c, hc, heq⟩ := List.mem_map.1 hc
      have hlower := (unescaped_of_pathChar (hchar c hc).1).2.2.2.2
      simp [heq] at hlower
  refine ⟨fun c hc => (unescaped_of_pathChar (hchar c hc).1).1, fun c hc => ?_, ?_, ?_⟩
  · have hback := (unescaped_of_pathChar (hchar c hc).1).2.2.2.1
    simp [isSlash, (hchar c hc).2, hback]
  · exact Bool.eq_false_iff.2 fun h => hnone (mem_dotTexts (.inl h))
  · exact Bool.eq_false_iff.2 fun h => hnone (mem_dotTexts (.inr h))

theorem Normal.extend {u : Url} (h : u.Normal domains) {path : List Char}
    (hpath : ∀ c ∈ path, isPathChar c = true) : (u.extend path).Normal domains := by
  have htail {set : Char → Bool} (hset : set '/' = false) (hchars : ∀ c, isPathChar c = true → set c = false)
      {cs : List Char} (hcs : Clean set cs) : Clean set (dropTrailingSlashes cs ++ '/' :: path) := by
    refine clean_append.2 ⟨fun c hc => hcs c ((List.rdropWhile_prefix _ _).subset hc), ?_⟩
    exact List.forall_mem_cons.2 ⟨hset, fun c hc => hchars c (hpath c hc)⟩
  cases h with
  | @mk scheme a parts q f hspecial ha hne hparts hq hf =>
      cases f with
      | some f =>
          refine .mk hspecial ha hne hparts hq ?_
          rintro _ ⟨⟩
          exact htail (by decide) (fun c hc => (unescaped_of_pathChar hc).2.1) (hf f rfl)
      | none =>
          cases q with
          | some q =>
              refine .mk hspecial ha hne hparts ?_ hf
              rintro _ ⟨⟩
              exact htail (by decide) (fun c hc => (unescaped_of_pathChar hc).2.2.1) (hq q rfl)
          | none =>
              refine .mk hspecial ha ?_ ?_ hq hf
              · simp [Text.pieces_ne_nil]
              · intro s hs
                rcases List.mem_append.1 hs with hs | hs
                · exact hparts s ((List.rdropWhile_prefix _ _).subset hs)
                · exact segment_of_piece hpath hs

/-! ## Where the path alone is joined on -/

/-- The URL `u'` is `u` with its path, but for the slashes at its end, followed by one slash and `path`
without the slashes in front. -/
structure Joined (path : List Char) (u u' : Url) : Prop where
  scheme : u'.scheme = u.scheme
  authority : u'.authority = u.authority
  path : u'.path.text = dropTrailingSlashes u.path.text ++ '/' :: dropSlashes path
  query : u'.query = u.query
  fragment : u'.fragment = u.fragment

theorem Normal.special {u : Url} (h : u.Normal domains) : schemeKind u.scheme = .special := by
  cases h with
  | mk hspecial _ _ _ _ _ => exact hspecial

theorem Normal.whole {u : Url} (h : u.Normal domains) :
    ∃ parts, u.path = .segments parts ∧ ∀ s ∈ parts, '/' ∉ s := by
  cases h with
  | @mk _ _ parts _ _ _ _ _ hparts _ _ =>
      exact ⟨parts, rfl, fun s hs => (hparts s hs).slash_notMem⟩

/-- No text ends in a slash and a letter more than itself. -/
theorem ne_append_slash (cs : List Char) : cs ≠ dropTrailingSlashes cs ++ ['/', 'x'] := by
  intro h
  have hletter : 'x' ≠ '/' := by decide
  have hsplit : dropTrailingSlashes cs ++ ['/', 'x'] = dropTrailingSlashes cs ++ ['/'] ++ ['x'] := by simp
  have hlast : dropTrailingSlashes cs = cs := by
    rw [hsplit] at h
    rw [h, dropTrailingSlashes_of_last hletter]
  rw [hlast] at h
  simpa using congrArg List.length h

/-- All paths are joined on to the path of a URL exactly if no part comes after that. -/
theorem joined_extend_iff {u : Url} (h : u.Normal domains) :
    (∀ path, (∀ c ∈ path, isPathChar c = true) → Joined path u (u.extend (dropSlashes path))) ↔
      u.query = none ∧ u.fragment = none := by
  constructor
  · intro hall
    -- A path that is a letter would make the last part longer.
    have hletter := hall ['x'] (List.forall_mem_singleton.2 rfl)
    have hdrop : dropSlashes ['x'] = ['x'] := by decide
    rw [hdrop] at hletter
    cases hf : u.fragment with
    | some f =>
        have hfragment := hletter.fragment
        simp only [extend, hf] at hfragment
        exact absurd (Option.some.inj hfragment).symm (ne_append_slash f)
    | none =>
        cases hq : u.query with
        | some q =>
            have hquery := hletter.query
            simp only [extend, hf, hq] at hquery
            exact absurd (Option.some.inj hquery).symm (ne_append_slash q)
        | none => exact ⟨rfl, rfl⟩
  · rintro ⟨hq, hf⟩ path -
    obtain ⟨parts, hparts, hwhole⟩ := h.whole
    have hextend : u.extend (dropSlashes path) = { u with path := u.path.join (dropSlashes path) } := by
      simp only [extend, hq, hf]
    rw [hextend]
    exact ⟨rfl, rfl, by rw [hparts]; exact text_join hwhole _, rfl, rfl⟩

end Url

/-! ## Configured servers -/

/-- The parser reads the URLs of special schemes as the standard does with the conversion `domains`. How it
reads others, and what it makes of a text that is no URL, is left open. -/
def UrlParser.Follows (urls : UrlParser) (domains : Url.DomainToAscii) : Prop :=
  ∀ s u, Url.schemeKind u.scheme = .special → (urls.parse s = .ok u ↔ Url.parse domains s = .ok u)

theorem UrlParser.follows_standard (domains : Url.DomainToAscii) : (standard domains).Follows domains :=
  fun _ _ _ => Iff.rfl

theorem Endpoint.toList_urlFor (e : Endpoint) (path : String) :
    (e.urlFor path).toList = e.baseUrl.toList ++ '/' :: dropSlashes path.toList := by
  simp [urlFor]

section Servers

variable {urls : UrlParser} {domains : Url.DomainToAscii} {c : ServerConfig} {e : Endpoint} {u : Url}
  (hdomains : domains.Standard) (hurls : urls.Follows domains) (he : c.endpoint urls = .ok e)
  (hu : urls.parse c.address = .ok u) (hnormal : u.Normal domains)

include hdomains hurls he hu hnormal

/-- What the endpoint of an address gives for a path reads back. -/
theorem ServerConfig.parse_urlFor {path : String} (hpath : ∀ ch ∈ path.toList, isPathChar ch = true) :
    urls.parse (e.urlFor path) = .ok (u.extend (dropSlashes path.toList)) := by
  have hbase : e.baseUrl.toList = dropTrailingSlashes u.chars := by
    unfold endpoint at he
    rw [hu] at he
    cases he
    exact String.toList_ofList
  have htail : ∀ ch ∈ dropSlashes path.toList, isPathChar ch = true := fun ch hch =>
    hpath ch ((List.dropWhile_sublist _).subset hch)
  have hextended := hnormal.extend htail
  rw [hurls _ _ hextended.special, Url.parse, e.toList_urlFor, hbase, ← Url.chars_extend hnormal]
  exact Url.parseChars_chars hdomains hextended

/-- All paths are joined on to the path of an address exactly if it has neither query nor fragment. -/
theorem ServerConfig.joined_urlFor_iff :
    (∀ path : String, (∀ ch ∈ path.toList, isPathChar ch = true) →
      ∃ u', urls.parse (e.urlFor path) = .ok u' ∧ Url.Joined path.toList u u') ↔
      u.query = none ∧ u.fragment = none := by
  rw [← Url.joined_extend_iff hnormal]
  constructor
  · intro hall path hpath
    obtain ⟨path, rfl⟩ : ∃ s : String, s.toList = path := ⟨String.ofList path, String.toList_ofList⟩
    obtain ⟨u', hu', hjoined⟩ := hall path hpath
    rw [parse_urlFor hdomains hurls he hu hnormal hpath] at hu'
    cases hu'
    exact hjoined
  · exact fun hall path hpath =>
      ⟨_, parse_urlFor hdomains hurls he hu hnormal hpath, hall path.toList hpath⟩

end Servers

theorem Url.isHttp_special {u : Url} (h : u.isHttp = true) : schemeKind u.scheme = .special := by
  simp only [isHttp, Bool.and_eq_true, Bool.or_eq_true, beq_iff_eq] at h
  rcases h.1 with hscheme | hscheme
  all_goals
    rw [hscheme]
    decide

/-- Every server of a pool that entries have been registered with is one of them, in its place. -/
theorem mem_servers_enrol {urls : UrlParser} {config : PoolConfig} {es : List (Entry urls)}
    (h : es.map Entry.config = config.servers)
    {server : Server Endpoint} (hs : server ∈ (({} : Pool Endpoint).enrol es).servers) :
    ∃ e ∈ es, (server.id, e.config) ∈ config.listing ∧ server.data = e.endpoint := by
  have htier (tier : Tier) {slot : Slot Endpoint}
      (hslot : slot ∈ ((({} : Pool Endpoint).enrol es).group tier).slots) :
      ∃ e ∈ es, (slot.server.id, e.config) ∈ config.placed tier ∧ slot.server.data = e.endpoint := by
    rw [slots_enrol] at hslot
    obtain ⟨i, hi, rfl⟩ := List.mem_mapIdx.1 hslot
    refine ⟨_, (List.mem_filter.1 (List.getElem_mem hi)).1, ?_, rfl⟩
    rw [PoolConfig.placed, PoolConfig.roster_eq h]
    exact List.mem_mapIdx.2 ⟨i, by simpa using hi, by simp [Entry.slot]⟩
  obtain ⟨slot, hslot, rfl⟩ := List.mem_map.1 hs
  rcases List.mem_append.1 hslot with hslot | hslot
  · obtain ⟨e, he, hplaced, hdata⟩ := htier .primary hslot
    exact ⟨e, he, List.mem_append_left _ hplaced, hdata⟩
  · obtain ⟨e, he, hplaced, hdata⟩ := htier .backup hslot
    exact ⟨e, he, List.mem_append_right _ hplaced, hdata⟩

/-- The servers of a pool that is built from a valid configuration are its servers. For each of them, and
every path of letters, digits, `-`, `_` and `/`, the URL for that path is the configured one with the path
after its last part: the same scheme, user, host and port, and the path after the fragment, or else after the
query, or else after the path. So it is joined on to the path, with the query and the fragment kept, exactly
if the address has neither. It is so for every parser that follows the standard, however it converts the names
of hosts to ASCII, as long as the conversion is one that the standard allows. -/
theorem urls_extend (urls : UrlParser) (domains : Url.DomainToAscii) (hdomains : domains.Standard)
    (hurls : urls.Follows domains) (config : PoolConfig) (start : Instant)
    (hvalid : config.validate urls = .ok config) :
    ∃ m, config.build urls { clock := start } = .ok (.ok ()) m ∧
      m.pool.servers.length = config.servers.length ∧
      ∀ server ∈ m.pool.servers, ∃ c u, (server.id, c) ∈ config.listing ∧ server.data.name = c.name ∧
        urls.parse c.address = .ok u ∧
        (∀ path : String, (∀ ch ∈ path.toList, isPathChar ch = true) →
          ∃ u', urls.parse (server.data.urlFor path) = .ok u' ∧
            u' = u.extend (dropSlashes path.toList) ∧
            u'.scheme = u.scheme ∧ u'.authority = u.authority) ∧
        ((∀ path : String, (∀ ch ∈ path.toList, isPathChar ch = true) →
          ∃ u', urls.parse (server.data.urlFor path) = .ok u' ∧ Url.Joined path.toList u u') ↔
          u.query = none ∧ u.fragment = none) := by
  rcases build_spec urls config { clock := start } with
    ⟨es, m, hconfigs, hbuild, hundergoes⟩ | ⟨es, c, rest, why, m, hsplit, hwhy, hbuild⟩
  case inr =>
    -- Valid servers are not refused.
    have hfit := (PoolConfig.validate_ok_iff.1 hvalid).fit c (by simp [hsplit])
    obtain ⟨u, hu, _⟩ := hfit.address
    exact absurd hwhy (ServerConfig.not_refused ⟨u, hu⟩ hfit.options)
  case inl =>
    have hpool : m.pool = ({} : Pool Endpoint).enrol es := hundergoes.enrolled.1
    refine ⟨m, hbuild, ?_, fun server hserver => ?_⟩
    · have hlists := congrArg List.length (servers_enrol hconfigs)
      rw [List.length_map, List.length_map] at hlists
      rw [hpool, hlists, ← config.perm_listing.length_eq, List.length_map]
    · rw [hpool] at hserver
      obtain ⟨e, he, hlisted, hdata⟩ := mem_servers_enrol hconfigs hserver
      have hmem : e.config ∈ config.servers := hconfigs ▸ List.mem_map_of_mem he
      obtain ⟨u, hu, hhttp⟩ := ((PoolConfig.validate_ok_iff.1 hvalid).fit e.config hmem).address
      have hspecial := Url.isHttp_special hhttp
      have hnormal : u.Normal domains := Url.normal_of_parse hdomains ((hurls _ _ hspecial).1 hu) hspecial
      rw [hdata]
      refine ⟨e.config, u, hlisted, e.endpoint_name, hu, fun path hpath => ?_, ?_⟩
      · exact ⟨_, ServerConfig.parse_urlFor hdomains hurls e.parsed hu hnormal hpath, rfl,
          u.extend_scheme _, u.extend_authority _⟩
      · exact ServerConfig.joined_urlFor_iff hdomains hurls e.parsed hu hnormal

/-- The conversion of names that are in ASCII, and of one name that is not, whose form in ASCII has an encoded
label. -/
def umlaut : Url.DomainToAscii where
  convert? bytes :=
    if bytes = Url.utf8 "bücher.example".toList ∨ bytes = Url.utf8 "xn--bcher-kva.example".toList then
      some "xn--bcher-kva.example".toList
    else Url.DomainToAscii.ascii.convert? bytes

theorem standard_umlaut : umlaut.Standard := by
  have hother {bytes : List UInt8} {cs : List Char}
      (h : Url.DomainToAscii.ascii.convert? bytes = some cs) : umlaut.convert? bytes = some cs := by
    -- The two forms of the name have no conversion otherwise.
    have hunknown : Url.DomainToAscii.ascii.convert? (Url.utf8 "bücher.example".toList) = none ∧
        Url.DomainToAscii.ascii.convert? (Url.utf8 "xn--bcher-kva.example".toList) = none := by
      decide +kernel
    have hnone : ¬ (bytes = Url.utf8 "bücher.example".toList ∨
        bytes = Url.utf8 "xn--bcher-kva.example".toList) := by
      rintro (rfl | rfl)
      · exact nomatch hunknown.1.symm.trans h
      · exact nomatch hunknown.2.symm.trans h
    simp only [umlaut, if_neg hnone, h]
  refine ⟨fun cs hchars hplain => hother (Url.DomainToAscii.standard_ascii.ascii cs hchars hplain),
    fun bytes cs h => ?_⟩
  simp only [umlaut] at h
  split at h
  · cases h
    decide +kernel
  · exact hother (Url.DomainToAscii.standard_ascii.stable bytes cs h)

/-- An address with all that a path can stand after, one with a query, one with a fragment, and one with a
name outside ASCII. -/
def branches : PoolConfig where
  servers := [
    { name := "a", address := "HTTP://Ann:pw@EXAMPLE.com:80/x/./y/../z//" },
    { name := "b", address := "https://[0::1]:8443/v1/?key=k/", backup := true },
    { name := "c", address := "http://0x7f.1#top" },
    { name := "d", address := "http://b%C3%BCcher.example:8080/" }]

theorem urls_extend_branches :
    let urls : UrlParser := .standard umlaut
    umlaut.Standard ∧ urls.Follows umlaut ∧ branches.validate urls = .ok branches ∧
    ∃ m, branches.build urls { clock := ⟨0⟩ } = .ok (.ok ()) m ∧ m.pool.servers.length = 4 ∧
      ∀ server ∈ m.pool.servers, ∃ u', urls.parse (server.data.urlFor "//a/b_1-2/") = .ok u' ∧
        (server.id.text, u'.text) ∈ [("primary#0", "http://Ann:pw@example.com/x/z/a/b_1-2/"),
          ("primary#1", "http://127.0.0.1/#top/a/b_1-2/"),
          ("primary#2", "http://xn--bcher-kva.example:8080/a/b_1-2/"),
          ("backup#0", "https://[::1]:8443/v1/?key=k/a/b_1-2/")] := by
  intro urls
  have hfollows : urls.Follows umlaut := UrlParser.follows_standard umlaut
  have hvalid : branches.validate urls = .ok branches := by decide +kernel
  have htexts : ∀ l ∈ branches.listing, (urls.parse l.2.address).toOption.all fun u =>
      (l.1.text, (u.extend (dropSlashes "//a/b_1-2/".toList)).text) ∈
        [("primary#0", "http://Ann:pw@example.com/x/z/a/b_1-2/"),
          ("primary#1", "http://127.0.0.1/#top/a/b_1-2/"),
          ("primary#2", "http://xn--bcher-kva.example:8080/a/b_1-2/"),
          ("backup#0", "https://[::1]:8443/v1/?key=k/a/b_1-2/")] := by
    decide +kernel
  obtain ⟨m, hbuild, hlength, hservers⟩ :=
    urls_extend urls umlaut standard_umlaut hfollows branches ⟨0⟩ hvalid
  refine ⟨standard_umlaut, hfollows, hvalid, m, hbuild, hlength, fun server hserver => ?_⟩
  obtain ⟨c, u, hlisted, _, hu, hurls, _⟩ := hservers server hserver
  obtain ⟨u', hu', rfl, _, _⟩ := hurls "//a/b_1-2/" (List.all_eq_true.1 rfl)
  have htext := htexts _ hlisted
  rw [hu] at htext
  exact ⟨_, hu', by simpa [Except.toOption] using htext⟩

/-- A server that is to be sent a key in the query. -/
def keyed : PoolConfig where
  servers := [{ name := "a", address := "http://127.0.0.1:3000/v1?key=x" }]

/-- Its URL for a path asks for no other path than the configured one, and has another key. -/
theorem path_in_query :
    let urls : UrlParser := .ascii
    keyed.validate urls = .ok keyed ∧ (∀ ch ∈ "/status".toList, isPathChar ch = true) ∧
    ∃ e u u', keyed.servers.map (ServerConfig.endpoint urls) = [.ok e] ∧
      urls.parse "http://127.0.0.1:3000/v1?key=x" = .ok u ∧ urls.parse (e.urlFor "/status") = .ok u' ∧
      u'.path.text = "/v1".toList ∧ u'.query = some "key=x/status".toList ∧
      ¬ Url.Joined "/status".toList u u' := by
  let url (query : String) : Url :=
    { scheme := "http".toList, authority := some { host := .ipv4 0x7f000001, port := some 3000 },
      path := .segments ["v1".toList], query := some query.toList }
  refine ⟨by decide +kernel, List.all_eq_true.1 (by decide), ⟨"a", "http://127.0.0.1:3000/v1?key=x"⟩,
    url "key=x", url "key=x/status", by decide +kernel, by decide +kernel, by decide +kernel, rfl, rfl, ?_⟩
  exact fun h => absurd h.query (by decide)

end TieredPool
