/-
**When a merged text can be read again.**

A merge of two texts that can be read always gives a text, but a close marker that stands as text in
one version may close an element of the other. `parse_sync_iff` says when: the merged text can be
read exactly if no move brings a stray close marker into an element of its name. It supposes that no
move leaves its last line incomplete where something follows, for then two lines become one.
`parse_sync_fails` shows that either may happen.
-/

import Scaffold.Proofs.Merge.Moves

namespace Scaffold.Merge

variable {delimiter fresh existing : Text} {requested : SyncMode} {skeleton : Skeleton}
  {freshForest existingForest : Forest}

/-- **A merged text can be read again** if and only if no stray close marker inside a moved element
names a skeleton element around the place it is moved to. -/
theorem parse_sync_iff (readFresh : Forest.parse delimiter fresh = .ok freshForest)
    (readExisting : Forest.parse delimiter existing = .ok existingForest)
    (planned : Plan.ofMode (modeFor delimiter existing requested) = .merge skeleton)
    (joined : ∀ move ∈ Forest.moves skeleton (skeleton.other freshForest existingForest) []
      (skeleton.own freshForest existingForest), move.IsJoined) :
    ∃ merged, sync delimiter fresh existing requested = .ok merged ∧
      ((∃ forest, Forest.parse delimiter merged = .ok forest) ↔
        ∀ move ∈ Forest.moves skeleton (skeleton.other freshForest existingForest) []
          (skeleton.own freshForest existingForest), move.IsApart delimiter) := by
  refine ⟨_, sync_eq_graft planned readFresh readExisting, ?_⟩
  have fitsFresh := (Forest.fits_of_parse readFresh).1
  have fitsExisting := (Forest.fits_of_parse readExisting).1
  have sealedFresh := Forest.isSealed_of_parse readFresh False.elim
  have sealedExisting := Forest.isSealed_of_parse readExisting False.elim
  have fitsOwn := skeleton.own_of fitsFresh fitsExisting
  have fitsOther := skeleton.other_of fitsFresh fitsExisting
  have sealedOwn := skeleton.own_of sealedFresh sealedExisting
  have sealedOther := skeleton.other_of sealedFresh sealedExisting
  have stands : Forest.Stands delimiter [] (Forest.graft skeleton
      (skeleton.other freshForest existingForest) (skeleton.own freshForest existingForest)) :=
    Forest.stands_graft fitsOther fitsOwn (List.nil_subset [])
  have isSealed := Forest.isSealed_graft fitsOther sealedOther fitsOwn
    (sealedOwn.mono fun filled => filled rfl) joined
  rw [Forest.parse_render_iff stands isSealed.isLined, Forest.fits_graft_iff fitsOther fitsOwn]

/-- A region inside an element, filled with a stray close marker of another name. -/
theorem parse_sync_iff_stray : ∃ fresh existing freshForest existingForest,
    fresh = "//<b k=\"v\">\n//<a sync=\"Reserve\">\n//</a>\n//</b>\n".toList ∧
      existing = "//<a sync=\"Reserve\">\n//</c>\n//</a>\n".toList ∧
      Forest.parse "//".toList fresh = .ok freshForest ∧
      Forest.parse "//".toList existing = .ok existingForest ∧
      Plan.ofMode (modeFor "//".toList existing .full) = .merge .fresh ∧
      (∀ move ∈ Forest.moves .fresh existingForest [] freshForest, move.IsJoined) ∧
      ∃ merged, sync "//".toList fresh existing .full = .ok merged ∧
        ((∃ forest, Forest.parse "//".toList merged = .ok forest) ↔
          ∀ move ∈ Forest.moves .fresh existingForest [] freshForest,
            move.IsApart "//".toList) := by
  have found : ((Forest.parse "//".toList
      "//<b k=\"v\">\n//<a sync=\"Reserve\">\n//</a>\n//</b>\n".toList).toOption.bind fun fresh =>
        (Forest.parse "//".toList
          "//<a sync=\"Reserve\">\n//</c>\n//</a>\n".toList).toOption.map fun existing =>
            decide (∀ move ∈ Forest.moves .fresh existing [] fresh, move.IsJoined)) =
      some true := by
    decide +kernel
  obtain ⟨freshForest, readFresh, rest⟩ := Option.bind_eq_some_iff.mp found
  obtain ⟨existingForest, readExisting, joined⟩ := Option.map_eq_some_iff.mp rest
  have readFresh := Forest.toOption_parse_eq_some_iff.mp readFresh
  have readExisting := Forest.toOption_parse_eq_some_iff.mp readExisting
  have joined := of_decide_eq_true joined
  have planned : Plan.ofMode (modeFor "//".toList
      "//<a sync=\"Reserve\">\n//</c>\n//</a>\n".toList .full) = .merge .fresh := by
    decide +kernel
  exact ⟨_, _, freshForest, existingForest, rfl, rfl, readFresh, readExisting, planned, joined,
    parse_sync_iff readFresh readExisting planned joined⟩

/-- **Two merges whose result cannot be read.** In the first, a stray close marker of `b` is moved
into `b`; in the second, an element that is the end of its text is moved in front of a line. -/
theorem parse_sync_fails :
    (∃ fresh existing merged,
      fresh = "//<b k=\"v\">\n//<a sync=\"Reserve\">\n//</a>\n//</b>\n".toList ∧
      existing = "//<a sync=\"Reserve\">\n//</b>\n//</a>\n".toList ∧
      (∃ forest, Forest.parse "//".toList fresh = .ok forest) ∧
      (∃ forest, Forest.parse "//".toList existing = .ok forest) ∧
      Plan.ofMode (modeFor "//".toList existing .full) = .merge .fresh ∧
      sync "//".toList fresh existing .full = .ok merged ∧
      ¬ ∃ forest, Forest.parse "//".toList merged = .ok forest) ∧
    ∃ fresh existing merged,
      fresh = "//<a sync=\"Reserve\"/>\ntail\n".toList ∧
      existing = "//<a sync=\"Reserve\">\nx\n//</a>".toList ∧
      (∃ forest, Forest.parse "//".toList fresh = .ok forest) ∧
      (∃ forest, Forest.parse "//".toList existing = .ok forest) ∧
      Plan.ofMode (modeFor "//".toList existing .full) = .merge .fresh ∧
      sync "//".toList fresh existing .full = .ok merged ∧
      ¬ ∃ forest, Forest.parse "//".toList merged = .ok forest := by
  refine ⟨⟨_, _, "//<b k=\"v\">\n//<a sync=\"Reserve\">\n//</b>\n//</a>\n//</b>\n".toList,
      rfl, rfl, ?_⟩,
    ⟨_, _, "//<a sync=\"Reserve\">\nx\n//</a>tail\n".toList, rfl, rfl, ?_⟩⟩
  · decide +kernel
  · decide +kernel

end Scaffold.Merge
