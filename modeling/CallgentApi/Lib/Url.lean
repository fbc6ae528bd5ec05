import Mathlib.Data.List.DropRight
import CallgentApi.Lib.JsString
import CallgentApi.Lib.Separator

/-!
# Urls and cookies as texts

A url is cut at its first `?` into a path and a query, and a query at each `&`
into parameters.  A cookie header is cut at each `;`, and a cookie at its first
`=` into a name and a value.
-/

namespace CallgentApi
namespace Url

open Js

def path (url : Text) : Text :=
  url.takeWhile fun c => c != '?'

def query (url : Text) : Text :=
  (url.dropWhile fun c => c != '?').drop 1

/-- The parameters of a query, which are not empty. -/
def parameters (query : Text) : List Text :=
  (query.splitOn '&').filter fun piece => !piece.isEmpty

theorem path_append_cons {head : Text} (h : '?' ∉ head) (tail : Text) :
    path (head ++ '?' :: tail) = head := by
  unfold path
  rw [List.takeWhile_append_of_pos]
  · simp
  · intro c hc
    rw [bne_iff_ne]
    rintro rfl
    exact h hc

theorem query_append_cons {head : Text} (h : '?' ∉ head) (tail : Text) :
    query (head ++ '?' :: tail) = tail := by
  unfold query
  rw [List.dropWhile_append_of_pos]
  · simp
  · intro c hc
    rw [bne_iff_ne]
    rintro rfl
    exact h hc

theorem path_of_not_mem {url : Text} (h : '?' ∉ url) : path url = url := by
  apply List.takeWhile_eq_self_iff.mpr
  intro c hc
  rw [bne_iff_ne]
  rintro rfl
  exact h hc

theorem query_of_not_mem {url : Text} (h : '?' ∉ url) : query url = [] := by
  have hall : forall c, c ∈ url -> (c != '?') = true := by
    intro c hc
    rw [bne_iff_ne]
    rintro rfl
    exact h hc
  unfold query
  rw [List.dropWhile_eq_nil_iff.mpr hall]
  rfl

theorem parameters_ne_nil {query : Text} {c : Char} (hmem : c ∈ query)
    (hne : c ≠ '&') : parameters query ≠ [] := by
  rcases Separator.exists_mem_splitOn hmem hne with ⟨piece, hpiece, hc⟩
  have hkept : piece ∈ parameters query := by
    apply List.mem_filter.mpr
    constructor
    · exact hpiece
    · cases piece with
      | nil => cases hc
      | cons d rest => rfl
  exact List.ne_nil_of_mem hkept

/-! ## Cookies -/

/-- The name of a cookie, without the space around it, and its value. -/
def cookieOf (piece : Text) : Text × Text :=
  (trim (piece.takeWhile fun c => c != '='),
    (piece.dropWhile fun c => c != '=').drop 1)

def cookies (header : Text) : List (Text × Text) :=
  (header.splitOn ';').map cookieOf

structure CookieName (name : Text) : Prop where
  semicolon : ';' ∉ name
  equals : '=' ∉ name
  trimmed : trim name = name

theorem trim_trim (s : Text) : trim (trim s) = trim s := by
  have htrim : forall t, trim t = (t.dropWhile isSpace).rdropWhile isSpace :=
    fun _ => rfl
  have hprefix : trim s <+: s.dropWhile isSpace := by
    rw [htrim]
    exact List.rdropWhile_prefix _ _
  have hstart : (trim s).dropWhile isSpace = trim s := by
    rw [List.dropWhile_eq_self_iff]
    intro hlength hspace
    have hself := List.dropWhile_idempotent (p := isSpace) (l := s)
    rw [List.dropWhile_eq_self_iff] at hself
    have hlt := Nat.lt_of_lt_of_le hlength hprefix.length_le
    apply hself hlt
    rw [← hprefix.getElem hlength]
    exact hspace
  rw [htrim (trim s), hstart, htrim s, List.rdropWhile_idempotent]

theorem cookieName_of_mem {header : Text} {cookie : Text × Text}
    (h : cookie ∈ cookies header) : CookieName cookie.1 := by
  rcases List.mem_map.mp h with ⟨piece, hpiece, rfl⟩
  have hsub : forall c, c ∈ trim (piece.takeWhile fun c => c != '=') ->
      c ∈ piece.takeWhile fun c => c != '=' := by
    intro c hc
    have hdrop := (List.rdropWhile_prefix isSpace _).subset hc
    exact (List.dropWhile_suffix isSpace).subset hdrop
  constructor
  · intro hmem
    have hpieceMem := (List.takeWhile_prefix _).subset (hsub _ hmem)
    exact Separator.not_mem_of_mem_splitOn hpiece hpieceMem
  · intro hmem
    have hne := List.mem_takeWhile_imp (hsub _ hmem)
    simp at hne
  · exact trim_trim _

theorem cookies_of_cookieName {name value : Text} (hname : CookieName name)
    (hvalue : ';' ∉ value) :
    cookies (name ++ '=' :: value) = [(name, value)] := by
  have hpiece : ';' ∉ name ++ '=' :: value := by
    intro hmem
    rcases List.mem_append.mp hmem with hmem | hmem
    · exact hname.semicolon hmem
    · rcases List.mem_cons.mp hmem with heq | hmem
      · cases heq
      · exact hvalue hmem
  have hall : forall c, c ∈ name -> (c != '=') = true := by
    intro c hc
    rw [bne_iff_ne]
    rintro rfl
    exact hname.equals hc
  unfold cookies cookieOf
  rw [List.splitOn_eq_singleton hpiece, List.map_singleton,
    List.takeWhile_append_of_pos hall, List.dropWhile_append_of_pos hall]
  simp [hname.trimmed]

theorem cookies_append_cons (front back : Text) :
    cookies (front ++ ';' :: back) = cookies front ++ cookies back := by
  unfold cookies
  rw [List.splitOn_append_cons_self, List.map_append]

end Url
end CallgentApi
