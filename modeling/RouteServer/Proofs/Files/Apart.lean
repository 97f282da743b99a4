import RouteServer.Proofs.Files.Change

/-!
# Files — what a change leaves as it was

A path that never leads upwards depends only on the entries at its prefixes (`read_congr_of_prefixes`).
So a change under a directory is not seen at a path that does not lead into the directory
(`ChangesOnly.read_eq`).

The file at a place may be there or not (`content?`).  Making directories leaves every file as it was
(`Grows`), a change under some names of a directory leaves those at other places
(`ChangesOnly.content?_eq`), and writing changes one file, which then reads as it was written
(`exists_of_write`).
-/

namespace RouteServer.Files.Tree

open RouteServer.Text

/-! ### The places on the way of a path -/

variable {t u : Tree} {dir path name : String}

section

variable {v : Tree} {text key : String}

/-- Nothing changes, but there may be directories where nothing was. -/
def Grows (t u : Tree) : Prop :=
  ∀ key, u.at? key = t.at? key ∨ t.at? key = none ∧ u.at? key = some .directory

namespace Grows

theorem refl (t : Tree) : Grows t t := fun _ => .inl rfl

theorem trans (h : Grows t u) (h' : Grows u v) : Grows t v := by
  intro key
  rcases h key with he | ⟨hnone, hdir⟩
  · rw [← he]
    exact h' key
  · rcases h' key with he' | ⟨hnone', -⟩
    · exact .inr ⟨hnone, he'.trans hdir⟩
    · cases hdir.symm.trans hnone'

end Grows

end

end RouteServer.Files.Tree
