import MiniBanking.Go.Text

/-!
# URLs of the Go standard library

`url.Parse` of a URL with a scheme and no slash behind it: what follows the scheme is kept as it is,
up to the query. What only other URLs need is a parameter.

## Main definitions

* `Url`, `UrlLibrary`: a URL, and what is done with hosts, paths and fragments
* `getScheme`, `parseUrl`, `Url.string`

## Main results

* `parseUrl_rootless`: such a URL is read, and written again as it was
-/

namespace Go

/-- `url.URL`, with user, host and path as one text. -/
structure Url where
  scheme : List Char := []
  /-- `Opaque` -/
  rootless : List Char := []
  path : List Char := []
  forceQuery : Bool := false
  rawQuery : List Char := []
  fragment : List Char := []

/-- What is done with URLs that have a host or a path, and with fragments. -/
structure UrlLibrary where
  /-- The rest of `parse`, of a URL with this rest. -/
  parseHierarchy : Url → (rest : List Char) → Except String Url
  setFragment : Url → List Char → Except String Url
  hierarchy : Url → List Char
  escapedFragment : Url → List Char

/-- `strings.Cut`, at a character. -/
def cut (c : Char) (cs : List Char) : List Char × List Char :=
  (cs.takeWhile (· ≠ c), (cs.dropWhile (· ≠ c)).drop 1)

theorem cut_of_notMem {c : Char} {cs : List Char} (h : c ∉ cs) : cut c cs = (cs, []) := by
  have hall : ∀ d ∈ cs, decide (d ≠ c) = true := fun d hd =>
    decide_eq_true fun heq => h (heq ▸ hd)
  have htake : cs.takeWhile (· ≠ c) = cs := List.takeWhile_eq_self_iff.mpr hall
  have hdrop : cs.dropWhile (· ≠ c) = [] := List.dropWhile_eq_nil_iff.mpr hall
  rw [cut, htake, hdrop, List.drop_nil]

/-- A byte that `stringContainsCTLByte` looks for. -/
def isCTL (c : Char) : Bool := c.toNat < 0x20 || c.toNat = 0x7F

/-- A character that a scheme may contain but not begin with. -/
def isSchemeSign (c : Char) : Bool := c.isDigit || c = '+' || c = '-' || c = '.'

/-- `getScheme`, behind what it has seen of a URL. -/
def schemeFrom (rawURL : List Char) : (seen rest : List Char) →
    Except String (List Char × List Char)
  | _, [] => return ([], rawURL)
  | seen, c :: cs =>
    if c.isAlpha then schemeFrom rawURL (seen ++ [c]) cs
    else if isSchemeSign c then
      if seen = [] then return ([], rawURL) else schemeFrom rawURL (seen ++ [c]) cs
    else if c = ':' then
      if seen = [] then throw "missing protocol scheme" else return (seen, cs)
    else return ([], rawURL)

/-- `getScheme` -/
def getScheme (rawURL : List Char) : Except String (List Char × List Char) :=
  schemeFrom rawURL [] rawURL

namespace UrlLibrary

variable (lib : UrlLibrary)

/-- `parse` from the scheme on. -/
def parseRest (scheme rest : List Char) : Except String Url :=
  let forceQuery := rest.getLast? = some '?' ∧ rest.count '?' = 1
  let (rest, rawQuery) := if forceQuery then (rest.dropLast, []) else cut '?' rest
  if rest.head? ≠ some '/' ∧ scheme ≠ [] then
    return { scheme, rootless := rest, forceQuery, rawQuery }
  else lib.parseHierarchy { scheme, forceQuery, rawQuery } rest

/-- `parse`, without a fragment. -/
def parse (rawURL : List Char) : Except String Url := do
  if rawURL.any isCTL then throw "net/url: invalid control character in URL"
  if rawURL = ['*'] then return { path := ['*'] }
  let (scheme, rest) ← getScheme rawURL
  lib.parseRest (scheme.map Char.toLower) rest

/-- `url.Parse` -/
def parseUrl (rawURL : List Char) : Except String Url := do
  let (u, frag) := cut '#' rawURL
  let url ← lib.parse u
  if frag = [] then return url
  lib.setFragment url frag

/-- `URL.String` -/
def string (url : Url) : List Char :=
  (if url.scheme = [] then [] else url.scheme ++ [':']) ++
    (if url.rootless = [] then lib.hierarchy url else url.rootless) ++
      (if url.forceQuery ∨ url.rawQuery ≠ [] then '?' :: url.rawQuery else []) ++
        (if url.fragment = [] then [] else '#' :: lib.escapedFragment url)

end UrlLibrary

/-- A scheme of small letters is found. -/
theorem schemeFrom_eq {scheme : List Char} (rawURL seen rest : List Char)
    (hscheme : ∀ c ∈ scheme, c.isAlpha = true) (hne : seen ++ scheme ≠ []) :
    schemeFrom rawURL seen (scheme ++ ':' :: rest) = .ok (seen ++ scheme, rest) := by
  induction scheme generalizing seen with
  | nil =>
    rw [List.append_nil] at hne
    have hcolon : (':').isAlpha = false ∧ isSchemeSign ':' = false := by decide
    simp [schemeFrom, hcolon, hne]
    rfl
  | cons c scheme ih =>
    obtain ⟨hc, hscheme⟩ := List.forall_mem_cons.mp hscheme
    rw [List.cons_append, schemeFrom, if_pos hc, ih (seen ++ [c]) hscheme (by simp)]
    rw [List.append_assoc, List.singleton_append]

/-- **A URL without a host or a path** is read, and written again as it was. -/
theorem parseUrl_rootless (lib : UrlLibrary) {scheme rest : List Char} (hne : scheme ≠ [])
    (hrest : rest ≠ []) (hscheme : ∀ c ∈ scheme, c.isAlpha = true ∧ c.toLower = c)
    (hslash : rest.head? ≠ some '/')
    (hchars : ∀ c ∈ scheme ++ ':' :: rest, c ≠ '#' ∧ c ≠ '?' ∧ isCTL c = false) :
    ∃ url, lib.parseUrl (scheme ++ ':' :: rest) = .ok url ∧
      lib.string url = scheme ++ ':' :: rest := by
  have hfragment : cut '#' (scheme ++ ':' :: rest) = (scheme ++ ':' :: rest, []) :=
    cut_of_notMem fun hmem => (hchars '#' hmem).1 rfl
  have hquestion : '?' ∉ rest := fun hmem =>
    (hchars '?' (List.mem_append_right _ (List.mem_cons_of_mem _ hmem))).2.1 rfl
  have hctl : (scheme ++ ':' :: rest).any isCTL = false := by
    rw [List.any_eq_false]
    exact fun c hc => by rw [(hchars c hc).2.2]; exact Bool.false_ne_true
  have hstar : scheme ++ ':' :: rest ≠ ['*'] := by
    rcases scheme with _ | ⟨c, scheme⟩
    · exact absurd rfl hne
    · intro h
      rw [List.cons_append, List.cons.injEq] at h
      exact absurd h.2 (by simp)
  have hlower : scheme.map Char.toLower = scheme := by
    rw [List.map_congr_left fun c hc => (hscheme c hc).2, List.map_id']
  have hforce : ¬ (rest.getLast? = some '?' ∧ rest.count '?' = 1) := fun h =>
    hquestion (List.mem_of_getLast? h.1)
  have hget : getScheme (scheme ++ ':' :: rest) = .ok (scheme, rest) :=
    schemeFrom_eq (scheme ++ ':' :: rest) [] rest (fun c hc => (hscheme c hc).1) hne
  refine ⟨{ scheme, rootless := rest, forceQuery := false }, ?_, ?_⟩
  · have hparseRest : lib.parseRest scheme rest =
        .ok { scheme, rootless := rest, forceQuery := false } := by
      simp only [UrlLibrary.parseRest, if_neg hforce, cut_of_notMem hquestion,
        decide_eq_false hforce]
      exact if_pos ⟨hslash, hne⟩
    have hparse : lib.parse (scheme ++ ':' :: rest) = lib.parseRest scheme rest := by
      rw [UrlLibrary.parse, hctl, if_neg hstar, hget]
      show lib.parseRest (scheme.map Char.toLower) rest = _
      rw [hlower]
    rw [UrlLibrary.parseUrl, hfragment]
    show (lib.parse _ >>= _) = _
    rw [hparse, hparseRest]
    rfl
  · simp [UrlLibrary.string, hne, hrest]

end Go
