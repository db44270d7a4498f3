/-
**Merging a file with itself.**

`sync_self`: a file is not changed by a merge with itself, in whatever mode is asked for and
whatever mode it declares. Where the plan is a merge, every region that asks the counterpart finds
itself there: it is the first element of its name.
-/

import Scaffold.Proofs.Merge.Graft
import Scaffold.Proofs.Tag.RoundTrip

namespace Scaffold

theorem Skeleton.own_self {α : Type} (skeleton : Skeleton) (version : α) :
    skeleton.own version version = version := by
  cases skeleton <;> rfl

theorem Skeleton.other_self {α : Type} (skeleton : Skeleton) (version : α) :
    skeleton.other version version = version := by
  cases skeleton <;> rfl

namespace Merge

/-- **A merge of a file with itself changes nothing**, if the regions that carry a directive are the
first elements of their names. -/
theorem sync_self {delimiter content : Text} {requested : SyncMode} {forest : Forest}
    (read : Forest.parse delimiter content = .ok forest)
    (first : ∀ item ∈ forest.elements, item.tag.regionSync? ≠ none →
      forest.find? item.tag.name = some item) :
    sync delimiter content content requested = .ok content := by
  cases planned : Plan.ofMode (modeFor delimiter content requested) with
  | keepExisting => rw [sync, planned]
  | takeFresh => rw [sync, planned]
  | merge skeleton =>
    rw [sync_eq_graft planned read read, skeleton.own_self, skeleton.other_self,
      Forest.graft_of_found first, Forest.render_of_parse read]

/-- A declared mode, regions inside regions, and a later element of the name of a region. -/
theorem sync_self_nested : ∃ content forest,
    content = ("//<file sync=\"Demand\"/>\n//<a sync=\"Reserve\">\n//<b sync=\"replace\"/>\n" ++
      "//</a>\n//<b k=\"v\">\n//</p>\n//</b>").toList ∧
      Forest.parse "//".toList content = .ok forest ∧
      (∀ item ∈ forest.elements, item.tag.regionSync? ≠ none →
        forest.find? item.tag.name = some item) ∧
      sync "//".toList content content .full = .ok content := by
  have found : ((Forest.parse "//".toList
      ("//<file sync=\"Demand\"/>\n//<a sync=\"Reserve\">\n//<b sync=\"replace\"/>\n" ++
        "//</a>\n//<b k=\"v\">\n//</p>\n//</b>").toList).toOption.map fun forest =>
          decide (∀ item ∈ forest.elements, item.tag.regionSync? ≠ none →
            forest.find? item.tag.name = some item)) = some true := by
    decide +kernel
  obtain ⟨forest, read, first⟩ := Option.map_eq_some_iff.mp found
  have read := Forest.toOption_parse_eq_some_iff.mp read
  have first := of_decide_eq_true first
  exact ⟨_, forest, rfl, read, first, sync_self read first⟩

end Merge

end Scaffold
