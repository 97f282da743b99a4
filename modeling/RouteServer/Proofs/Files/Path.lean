import RouteServer.Files.Path
import RouteServer.Proofs.Text.Split

/-!
# Files — a name under a directory

The path of a name under a directory has the parts of the directory and the name behind them
(`parts_join`), whether the directory is written with a slash at its end or without.
-/

namespace RouteServer.Files

open RouteServer.Text

/-- The name of something that stands in a directory. -/
structure IsName (name : String) : Prop where
  noSlash : '/' ∉ name.toList
  ne_empty : name ≠ ""
  ne_dot : name ≠ "."
  ne_dots : name ≠ ".."

namespace Path

theorem pieces_of_notMem {sep : Char} {s : String} (h : sep ∉ s.toList) : pieces sep s = [s] := by
  rw [pieces, splitAt_of_notMem h]
  simp

theorem pieces_of_noSlash {s : String} (h : '/' ∉ s.toList) : pieces '/' s = [s] :=
  pieces_of_notMem h

theorem pieces_append (sep : Char) (base name : String) :
    pieces sep (base ++ String.ofList [sep] ++ name) = pieces sep base ++ pieces sep name := by
  have hchars : (base ++ String.ofList [sep] ++ name).toList =
      base.toList ++ sep :: name.toList := by
    simp only [String.toList_append, List.append_assoc, String.toList_ofList, List.singleton_append]
  rw [pieces, hchars, splitAt_append, List.map_append]
  rfl

theorem pieces_append_slash (base name : String) :
    pieces '/' (base ++ "/" ++ name) = pieces '/' base ++ pieces '/' name :=
  pieces_append '/' base name

theorem pieces_empty : pieces '/' "" = [""] := by
  rw [pieces_of_noSlash (by simp)]

theorem parts_append_slash (base name : String) :
    parts (base ++ "/" ++ name) = parts base ++ parts name := by
  rw [parts, pieces_append_slash, List.filter_append]
  rfl

theorem parts_name {name : String} (h : IsName name) : parts name = [name] := by
  rw [parts, pieces_of_noSlash h.noSlash]
  simp [h.ne_empty, h.ne_dot]

theorem isAbsolute_name {name : String} (h : IsName name) : isAbsolute name = false := by
  refine Bool.eq_false_iff.2 fun habs => ?_
  have hslash := startsWith_iff.1 habs
  exact h.noSlash (hslash.subset (by simp))

/-- The three ways in which a name stands under a directory. -/
theorem join_cases (dir : String) {name : String} (h : IsName name) :
    (dir = "" ∧ join dir name = name) ∨
    (∃ base, dir = base ++ "/" ∧ join dir name = base ++ "/" ++ name) ∨
    (dir ≠ "" ∧ join dir name = dir ++ "/" ++ name) := by
  unfold join
  rw [if_neg (by simp [isAbsolute_name h])]
  by_cases he : dir = ""
  · exact .inl ⟨he, by rw [if_pos he]⟩
  · rw [if_neg he]
    by_cases hs : endsWith "/" dir
    · rw [if_pos hs]
      refine .inr (.inl ?_)
      unfold endsWith stripEnd at hs
      rw [Option.isSome_map, Option.isSome_iff_exists] at hs
      obtain ⟨r, hr⟩ := hs
      have hrev : dir.toList.reverse = '/' :: r := stripStart_eq_some_iff.1 hr
      have hdir : dir = String.ofList r.reverse ++ "/" := by
        apply String.toList_inj.1
        rw [String.toList_append, String.toList_ofList, ← List.reverse_reverse dir.toList, hrev]
        simp
      exact ⟨_, hdir, by rw [← hdir]⟩
    · rw [if_neg hs]
      exact .inr (.inr ⟨he, rfl⟩)

theorem parts_join (dir : String) {name : String} (h : IsName name) :
    parts (join dir name) = parts dir ++ [name] := by
  rcases join_cases dir h with ⟨rfl, hj⟩ | ⟨base, rfl, hj⟩ | ⟨-, hj⟩
  · rw [hj, parts_name h]
    simp [parts, pieces_empty]
  · have hbase : parts (base ++ "/") = parts base := by
      have := parts_append_slash base ""
      rw [String.append_empty] at this
      rw [this]
      simp [parts, pieces_empty]
    rw [hj, parts_append_slash, parts_name h, hbase]
  · rw [hj, parts_append_slash, parts_name h]

/-- Names that differ have paths that differ. -/
theorem join_inj {dir name name' : String} (h : IsName name) (h' : IsName name') :
    join dir name = join dir name' ↔ name = name' := by
  refine ⟨fun he => ?_, fun he => he ▸ rfl⟩
  have hparts := congrArg parts he
  rw [parts_join dir h, parts_join dir h'] at hparts
  exact List.singleton_inj.1 (List.append_cancel_left hparts)

theorem join_ne_empty {dir name : String} (h : IsName name) : join dir name ≠ "" := by
  intro he
  have := parts_join dir h
  rw [he] at this
  simp [parts, pieces_empty] at this

theorem isAbsolute_append {dir : String} (h : dir ≠ "") (rest : String) :
    isAbsolute (dir ++ rest) = isAbsolute dir := by
  have hne : dir.toList ≠ [] := fun he => h (String.toList_eq_nil_iff.1 he)
  obtain ⟨c, cs, hc⟩ := List.exists_cons_of_ne_nil hne
  rw [Bool.eq_iff_iff]
  simp only [isAbsolute, startsWith_iff, String.toList_append, hc, List.cons_append]
  rw [show "/".toList = ['/'] from rfl]
  simp [List.cons_prefix_cons]

theorem isAbsolute_join {dir name : String} (h : IsName name) :
    isAbsolute (join dir name) = isAbsolute dir := by
  rcases join_cases dir h with ⟨rfl, hj⟩ | ⟨base, rfl, hj⟩ | ⟨hne, hj⟩
  · rw [hj, isAbsolute_name h]; rfl
  · rw [hj, isAbsolute_append (by simp)]
  · rw [hj, String.append_assoc, isAbsolute_append hne]

theorem meansDirectory_join {dir name : String} (h : IsName name) :
    meansDirectory (join dir name) = false := by
  have hlast : (pieces '/' (join dir name)).getLast? = some name := by
    have hn := pieces_of_noSlash h.noSlash
    rcases join_cases dir h with ⟨rfl, hj⟩ | ⟨base, rfl, hj⟩ | ⟨-, hj⟩
    · rw [hj, hn]; rfl
    · rw [hj, pieces_append_slash, hn]; simp
    · rw [hj, pieces_append_slash, hn]; simp
  unfold meansDirectory
  rw [hlast]
  simp [h.ne_empty, h.ne_dot, h.ne_dots]

/-- A name with one dot in it is cut there, unless the dot is its first character. -/
theorem splitExtension_append {base ext : String} (hb : '.' ∉ base.toList)
    (he : '.' ∉ ext.toList) :
    splitExtension (base ++ "." ++ ext) =
      if base = "" then ("." ++ ext, none) else (base, some ext) := by
  have hpieces : pieces '.' (base ++ "." ++ ext) = [base, ext] := by
    rw [show base ++ "." ++ ext = base ++ String.ofList ['.'] ++ ext from rfl, pieces_append,
      pieces_of_notMem hb, pieces_of_notMem he]
    rfl
  unfold splitExtension
  rw [hpieces]
  simp only [List.reverse_cons, List.reverse_nil, List.nil_append, List.cons_append,
    String.intercalate_singleton]
  by_cases h : base = ""
  · simp [h]
  · simp [h]

end Path

end RouteServer.Files
