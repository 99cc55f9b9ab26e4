import Mathlib.Data.List.TakeWhile
import Parley.Proofs.Text
import Parley.Web.Target

/-!
# The query of an address

Any address that can be read has the same query: what stands behind its first question mark,
up to a number sign.
-/

namespace Parley
namespace Target

open Text

/-- What stands behind the first question mark, up to a number sign. -/
def queryOf (address : String) : String :=
  (ofOrigin (address.toList.takeWhile (· ≠ '#'))).query

theorem ofOrigin_append_cons {path : List Char} (unasked : '?' ∉ path) (query : List Char) :
    ofOrigin (path ++ '?' :: query) =
      { path := String.ofList path, query := String.ofList query } := by
  rw [ofOrigin, cut?_append_cons unasked]

/-- What has no question mark in it may stand in front of a path. -/
theorem query_ofOrigin_append {start : List Char} (unasked : '?' ∉ start) (text : List Char) :
    (ofOrigin (start ++ text)).query = (ofOrigin text).query := by
  cases found : cut? '?' text with
  | none =>
      have absent : '?' ∉ start ++ text := by
        rw [List.mem_append]
        exact not_or.2 ⟨unasked, cut?_eq_none_iff.1 found⟩
      rw [ofOrigin, cut?_eq_none_iff.2 absent, ofOrigin, found]
  | some halves =>
      obtain ⟨path, query⟩ := halves
      have absent : '?' ∉ start ++ path := by
        rw [List.mem_append]
        exact not_or.2 ⟨unasked, not_mem_of_cut? found⟩
      rw [eq_of_cut? found, ← List.append_assoc, ofOrigin_append_cons absent,
        ofOrigin_append_cons (not_mem_of_cut? found)]

/-- A scheme and its slashes have no question mark in them. -/
theorem exists_of_behindScheme? {text rest : List Char} (found : behindScheme? text = some rest) :
    ∃ scheme, '?' ∉ scheme ∧ text = scheme ++ rest := by
  unfold behindScheme? at found
  split at found
  · rename_i marked behind
    cases found
    refine ⟨text.takeWhile isSchemeMark ++ [':', '/', '/'], fun member => ?_, ?_⟩
    · rcases List.mem_append.1 member with inScheme | inSlashes
      · exact absurd (List.mem_takeWhile_imp inScheme) (by decide)
      · exact absurd inSlashes (by decide)
    · rw [List.append_assoc]
      exact (List.takeWhile_append_dropWhile (p := isSchemeMark)).symm.trans (by rw [behind]; rfl)
  · cases found

/-- The name of a server has no question mark in it. -/
theorem exists_of_behindServer (text : List Char) :
    ∃ server, '?' ∉ server ∧ text = server ++ behindServer text := by
  refine ⟨text.takeWhile fun c => c ≠ '/' && c ≠ '?', fun member => ?_,
    List.takeWhile_append_dropWhile.symm⟩
  exact absurd (List.mem_takeWhile_imp member) (by decide)

/-- A target that can be read has the query of its address. -/
theorem query_read (address : String) :
    (read address).path = "" ∨ (read address).query = queryOf address := by
  unfold read queryOf
  generalize address.toList.takeWhile (· ≠ '#') = text
  dsimp only
  split
  · exact .inr rfl
  · split
    · rename_i rest found
      obtain ⟨scheme, inScheme, split⟩ := exists_of_behindScheme? found
      obtain ⟨server, inServer, path⟩ := exists_of_behindServer rest
      have same : (ofOrigin (behindServer rest)).query = (ofOrigin text).query :=
        calc (ofOrigin (behindServer rest)).query
            = (ofOrigin (server ++ behindServer rest)).query :=
              (query_ofOrigin_append inServer _).symm
          _ = (ofOrigin rest).query := by rw [← path]
          _ = (ofOrigin (scheme ++ rest)).query := (query_ofOrigin_append inScheme _).symm
          _ = (ofOrigin text).query := by rw [← split]
      refine .inr ?_
      split <;> exact same
    · exact .inl rfl

/-- Behind a base without marks of its own stands the query. -/
theorem queryOf_append {base written : String} (unasked : '?' ∉ base.toList)
    (unnumbered : '#' ∉ base.toList) (plain : '#' ∉ written.toList) :
    queryOf (base ++ "?" ++ written) = written := by
  have text : (base ++ "?" ++ written).toList = base.toList ++ '?' :: written.toList := by
    simp
  have whole : ∀ c ∈ base.toList ++ '?' :: written.toList, decide (c ≠ '#') = true := by
    intro c member
    rw [decide_eq_true_eq]
    rintro rfl
    simp [unnumbered, plain] at member
  rw [queryOf, text, List.takeWhile_eq_self_iff.2 whole, ofOrigin_append_cons unasked]
  exact String.ofList_toList

end Target
end Parley
