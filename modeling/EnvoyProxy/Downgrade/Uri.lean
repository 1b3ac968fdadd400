import EnvoyProxy.Lib.Search
import EnvoyProxy.Downgrade.Auxiliary
/-!
# The URI of the downgrade service

`HttpUri::makeHttpUri` (proxy_base.cc) splits the configured URI into what
becomes the scheme, the host and the path of a request. `IsUri` says what the
parts of an absolute URI are: the authority ends at a slash, at a question
mark or at a hash. The code looks for the slash only.
-/

namespace EnvoyProxy.ProxyBase
open Http

structure HttpUri where
  scheme : Bytes
  host : Bytes
  path : Bytes
  deriving DecidableEq

/-- `HttpUri::makeHttpUri` -/
def makeHttpUri (uri : Bytes) : Option HttpUri :=
  match find (ascii "://") uri with
  | none => none
  | some i =>
    let scheme := uri.take i
    if scheme ≠ ascii "http" ∧ scheme ≠ ascii "https" then none
    else
      let uriNoScheme := uri.drop (i + 3)
      if uriNoScheme = [] then none
      else
        let (host, path) :=
          match find [47] uriNoScheme with
          | none => (uriNoScheme, [47])
          | some pathStart => (uriNoScheme.take pathStart, uriNoScheme.drop pathStart)
        if host = [] then none else some { scheme, host, path }

/-! ## Absolute URIs -/

def IsHttp (scheme : Bytes) : Prop := scheme = ascii "http" ∨ scheme = ascii "https"

/-- Slash, question mark or hash. -/
def Delimits (b : UInt8) : Prop := b = 47 ∨ b = 63 ∨ b = 35

/-- The parts of an absolute URI; the last one is path, query and fragment,
each of which may be missing. -/
structure IsUri (uri scheme authority rest : Bytes) : Prop where
  http : IsHttp scheme
  parts : uri = scheme ++ ascii "://" ++ authority ++ rest
  nonempty : authority ≠ []
  undelimited : ∀ b ∈ authority, ¬ Delimits b
  delimited : ∀ b ∈ rest.head?, Delimits b

/-- What is behind the authority, with a slash where there is no path. -/
def pathOf (rest : Bytes) : Bytes := if rest.head? = some 47 then rest else 47 :: rest

/-- The URI is parsed if it is one, and into its parts. -/
def Parses (uri : Bytes) : Prop :=
  ((makeHttpUri uri).isSome = true ↔ ∃ scheme authority rest, IsUri uri scheme authority rest) ∧
    ∀ u, makeHttpUri uri = some u → ∃ rest, IsUri uri u.scheme u.host rest ∧ u.path = pathOf rest

theorem IsHttp.noColon {scheme : Bytes} (h : IsHttp scheme) : 58 ∉ scheme := by
  rcases h with rfl | rfl <;> decide

/-- What the code does behind the scheme. -/
theorem makeHttpUri_scheme {scheme : Bytes} (h : IsHttp scheme) (rest : Bytes) :
    makeHttpUri (scheme ++ ascii "://" ++ rest) =
      if rest.takeWhile (· ≠ 47) = [] then none
      else some ⟨scheme, rest.takeWhile (· ≠ 47), pathOf (rest.dropWhile (· ≠ 47))⟩ := by
  have hfind : find (ascii "://") (scheme ++ ascii "://" ++ rest) = some scheme.length := find_append h.noColon rest
  have htake : (scheme ++ ascii "://" ++ rest).take scheme.length = scheme := by
    rw [List.append_assoc, List.take_left]
  have hdrop : (scheme ++ ascii "://" ++ rest).drop (scheme.length + 3) = rest :=
    List.drop_left' List.length_append
  have hscheme : ¬ (scheme ≠ ascii "http" ∧ scheme ≠ ascii "https") := by
    rintro ⟨hne, hne'⟩
    exact h.elim hne hne'
  unfold makeHttpUri
  simp only [hfind, htake, hdrop, if_neg hscheme, find_letter]
  by_cases hslash : 47 ∈ rest
  · obtain ⟨host, path, rfl, hhost⟩ := List.eq_append_cons_of_mem hslash
    have hne : host ++ 47 :: path ≠ [] := by simp
    simp only [if_pos hslash, if_neg hne, takeWhile_ne_append hhost, dropWhile_ne_append hhost,
      List.take_left, List.drop_left]
    rfl
  · have hhost : rest.takeWhile (· ≠ 47) = rest := List.takeWhile_eq_self_iff.2 fun b hb => by
      simp only [decide_eq_true_eq]
      rintro rfl
      exact hslash hb
    have hpath : rest.dropWhile (· ≠ 47) = [] := by
      have hall := List.takeWhile_append_dropWhile (p := (· ≠ (47 : UInt8))) (l := rest)
      rw [hhost] at hall
      exact List.append_right_eq_self.1 hall
    simp only [if_neg hslash, hhost, hpath]
    split_ifs <;> rfl

/-- Nothing else is parsed. -/
theorem makeHttpUri_other {uri : Bytes} (h : ∀ scheme rest, IsHttp scheme → uri ≠ scheme ++ ascii "://" ++ rest) :
    makeHttpUri uri = none := by
  unfold makeHttpUri
  cases hfind : find (ascii "://") uri with
  | none => rfl
  | some i =>
    apply if_pos
    by_contra hscheme
    have hhttp : IsHttp (uri.take i) := by
      by_contra hnot
      exact hscheme (not_or.1 hnot)
    exact h (uri.take i) _ hhttp (find_some hfind)

/-! ## When it does as it should -/

theorem scheme_unique {scheme scheme' rest rest' : Bytes} (h : IsHttp scheme) (h' : IsHttp scheme')
    (heq : scheme ++ ascii "://" ++ rest = scheme' ++ ascii "://" ++ rest') : scheme = scheme' ∧ rest = rest' := by
  have hcolon : scheme ++ 58 :: (ascii "//" ++ rest) = scheme' ++ 58 :: (ascii "//" ++ rest') := by
    rw [List.append_assoc, List.append_assoc] at heq
    exact heq
  have hscheme : scheme = scheme' := by
    rw [← takeWhile_ne_append h.noColon (ascii "//" ++ rest), hcolon, takeWhile_ne_append h'.noColon]
  subst hscheme
  exact ⟨rfl, List.append_cancel_left heq⟩

/-- With nothing else that delimits in front of it, the first slash is where the authority ends. -/
theorem isUri_split {scheme rest : Bytes} (h : IsHttp scheme)
    (hclean : ∀ b ∈ rest.takeWhile (· ≠ 47), b ≠ 63 ∧ b ≠ 35)
    (hhost : rest.takeWhile (· ≠ 47) ≠ []) :
    IsUri (scheme ++ ascii "://" ++ rest) scheme (rest.takeWhile (· ≠ 47)) (rest.dropWhile (· ≠ 47)) where
  http := h
  parts := by rw [List.append_assoc _ _ (rest.dropWhile _), List.takeWhile_append_dropWhile]
  nonempty := hhost
  undelimited := by
    rintro b hb (hslash | hquestion | hhash)
    · exact absurd hslash (by simpa using List.mem_takeWhile_imp hb)
    · exact (hclean b hb).1 hquestion
    · exact (hclean b hb).2 hhash
  delimited := by
    intro b hb
    have hslash := List.head?_dropWhile_not (· ≠ 47) rest
    rw [Option.mem_def.1 hb] at hslash
    exact .inl (by simpa using hslash)

theorem parses_of_scheme {scheme : Bytes} (h : IsHttp scheme) (rest : Bytes)
    (hclean : ∀ b ∈ rest.takeWhile (· ≠ 47), b ≠ 63 ∧ b ≠ 35) : Parses (scheme ++ ascii "://" ++ rest) := by
  unfold Parses
  rw [makeHttpUri_scheme h]
  by_cases hhost : rest.takeWhile (· ≠ 47) = []
  · rw [if_pos hhost]
    refine ⟨⟨by simp, ?_⟩, by simp⟩
    rintro ⟨scheme', authority, rest', huri⟩
    have heq := huri.parts
    rw [List.append_assoc _ authority] at heq
    obtain ⟨-, rfl⟩ := scheme_unique h huri.http heq
    obtain ⟨b, authority, rfl⟩ := List.exists_cons_of_ne_nil huri.nonempty
    have hb : b ≠ 47 := fun hb => huri.undelimited b List.mem_cons_self (.inl hb)
    simp [hb] at hhost
  · rw [if_neg hhost]
    have huri := isUri_split h hclean hhost
    refine ⟨⟨fun _ => ⟨_, _, _, huri⟩, fun _ => rfl⟩, ?_⟩
    intro u hu
    obtain rfl := Option.some.inj hu
    exact ⟨_, huri, rfl⟩

/-- `makeHttpUri` parses a string as it should exactly if it is no http URI at
all or has no question mark and no hash in front of the first slash behind the
scheme. -/
theorem parses_iff (uri : Bytes) : Parses uri ↔
    ∀ scheme rest, IsHttp scheme → uri = scheme ++ ascii "://" ++ rest → ∀ b ∈ rest.takeWhile (· ≠ 47), b ≠ 63 ∧ b ≠ 35 := by
  constructor
  · rintro ⟨-, hparts⟩ scheme rest h rfl b hb
    have hhost : rest.takeWhile (· ≠ 47) ≠ [] := List.ne_nil_of_mem hb
    have hparsed := makeHttpUri_scheme h rest
    rw [if_neg hhost] at hparsed
    obtain ⟨_, huri, -⟩ := hparts _ hparsed
    have hnot := huri.undelimited b hb
    exact ⟨fun h => hnot (.inr (.inl h)), fun h => hnot (.inr (.inr h))⟩
  · intro hclean
    by_cases hhttp : ∃ scheme rest, IsHttp scheme ∧ uri = scheme ++ ascii "://" ++ rest
    · obtain ⟨scheme, rest, h, rfl⟩ := hhttp
      exact parses_of_scheme h rest (hclean scheme rest h rfl)
    · have hnone : makeHttpUri uri = none := makeHttpUri_other fun scheme rest h heq => hhttp ⟨scheme, rest, h, heq⟩
      constructor
      · rw [hnone]
        constructor
        · simp
        · rintro ⟨scheme, authority, rest, huri⟩
          exact absurd ⟨scheme, authority ++ rest, huri.http, by rw [huri.parts, List.append_assoc]⟩ hhttp
      · intro u hu
        rw [hnone] at hu
        cases hu

/-- A query straight behind the authority becomes part of the host. -/
theorem query_in_host : makeHttpUri (ascii "http://example.com?x=1") =
      some ⟨ascii "http", ascii "example.com?x=1", ascii "/"⟩ ∧ ¬ Parses (ascii "http://example.com?x=1") := by
  have hparsed : makeHttpUri (ascii "http://example.com?x=1") =
      some ⟨ascii "http", ascii "example.com?x=1", ascii "/"⟩ := by decide
  refine ⟨hparsed, ?_⟩
  rintro ⟨-, hparts⟩
  obtain ⟨_, huri, -⟩ := hparts _ hparsed
  exact huri.undelimited 63 (by decide) (.inr (.inl rfl))

/-! ## The headers of the downgrade request -/

/-- Where the parts come from. -/
theorem makeHttpUri_parts {uri : Bytes} {u : HttpUri} (hu : makeHttpUri uri = some u) :
    u.host ≠ [] ∧ ∃ rest, uri = u.scheme ++ ascii "://" ++ rest ∧ u.host = rest.takeWhile (· ≠ 47) ∧
      u.path = pathOf (rest.dropWhile (· ≠ 47)) := by
  by_cases hhttp : ∃ scheme rest, IsHttp scheme ∧ uri = scheme ++ ascii "://" ++ rest
  · obtain ⟨scheme, rest, h, rfl⟩ := hhttp
    rw [makeHttpUri_scheme h] at hu
    split_ifs at hu with hhost
    obtain rfl := Option.some.inj hu
    exact ⟨hhost, rest, rfl, rfl, rfl⟩
  · rw [makeHttpUri_other fun scheme rest h heq => hhttp ⟨scheme, rest, h, heq⟩] at hu
    cases hu

/-- A URI without NUL bytes has parts without NUL bytes. -/
theorem makeHttpUri_noNul {uri : Bytes} (h : 0 ∉ uri) {u : HttpUri} (hu : makeHttpUri uri = some u) :
    0 ∉ u.scheme ∧ 0 ∉ u.host ∧ 0 ∉ u.path := by
  obtain ⟨-, rest, rfl, hhost, hpath⟩ := makeHttpUri_parts hu
  simp only [List.mem_append, not_or] at h
  have hdrop : 0 ∉ rest.dropWhile (· ≠ 47) := fun hmem => h.2 ((List.dropWhile_suffix _).subset hmem)
  refine ⟨h.1.1, fun hmem => ?_, fun hmem => ?_⟩
  · rw [hhost] at hmem
    exact h.2 ((List.takeWhile_prefix _).subset hmem)
  · rw [hpath, pathOf] at hmem
    split_ifs at hmem
    · exact hdrop hmem
    · rcases List.mem_cons.1 hmem with hzero | hmem
      · exact absurd hzero (by decide)
      · exact hdrop hmem

/-- The configured URI, as it is set in the headers of the request. -/
def downgradeUri (uri : HeaderString) : Option Downgrade.HttpUri :=
  match hu : makeHttpUri uri.bytes with
  | none => none
  | some u =>
    have hparts := makeHttpUri_noNul uri.noNul hu
    some ⟨⟨u.scheme, hparts.1⟩, ⟨u.host, hparts.2.1⟩, ⟨u.path, hparts.2.2⟩⟩

/-- A downgrade request is sent to some host, and to a path. -/
theorem downgradeUri_parts {uri : HeaderString} {u : Downgrade.HttpUri} (h : downgradeUri uri = some u) :
    u.host.bytes ≠ [] ∧ 47 ∉ u.host.bytes ∧ u.path.bytes.head? = some 47 := by
  unfold downgradeUri at h
  split at h
  · cases h
  · next parsed hparsed =>
    obtain rfl := Option.some.inj h
    obtain ⟨hne, rest, -, hhost, hpath⟩ := makeHttpUri_parts hparsed
    have hnoSlash : 47 ∉ parsed.host := by
      rw [hhost]
      intro hmem
      simpa using List.mem_takeWhile_imp hmem
    have hslash : parsed.path.head? = some 47 := by
      rw [hpath, pathOf]
      split_ifs with hslash
      · exact hslash
      · rfl
    exact ⟨hne, hnoSlash, hslash⟩

end EnvoyProxy.ProxyBase
