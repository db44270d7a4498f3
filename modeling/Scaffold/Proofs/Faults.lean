/-
**Faults point at what they name.**

Whoever reads the message of a fault finds what it is about at its location: a name that comes again
where it is spelled again, an attribute at its marker, a payload at its brace, a macro at its
parenthesis, a tag without a partner at the start of its marker line. `IsDefectAt` and
`Tag.IsDefectAt` say so cause by cause.
-/

import Scaffold.Proofs.Extraction.Defects
import Scaffold.Proofs.Tag.Defects

namespace Scaffold

/-- **Every fault is where its cause has to be**, for a source that is not extracted and for a text
whose tags are not read. -/
theorem faults_in_place :
    (∀ (extractor : Extractor) (source : Text) (fault : Fault),
      extractor.parse source = .error fault →
        IsDefectAt source fault.location.offset fault.cause) ∧
      ∀ (delimiter text : Text) (fault : Fault), Forest.parse delimiter text = .error fault →
        Tag.IsDefectAt delimiter text fault.location.offset fault.cause := by
  constructor
  · intro extractor source fault failed
    exact Extractor.isDefectAt_of_parse_error failed
  · intro delimiter text fault failed
    exact Forest.isDefectAt_of_parse_error failed

/-- Faults of sources and of texts with tags, where characters before them are longer than a byte. -/
theorem faults_in_place_cases :
    (∀ sample ∈ [
        ("/* é */ enum E\x7bA,B,A\x7d;", Cause.keyRepeated "A".toList, 20),
        ("enum E\x7bA // é @@ActionResult\n\x7d;",
          .keyMissing "ActionResult".toList "Redo".toList, 15),
        ("enum E\x7bA // é @@Json \x7b\n\x7d;",
          .malformed (.unterminatedPayload "Json".toList), 22),
        ("/* é */ enum E\x7bA // GETSET(int\n\x7d;",
          .malformed (.unclosedInvocation "GETSET".toList), 27)],
      ∃ fault, Extractor.standard.parse sample.1.toList = .error fault ∧
        fault.cause = sample.2.1 ∧ fault.location.offset = sample.2.2 ∧
        IsDefectAt sample.1.toList fault.location.offset fault.cause) ∧
      ∀ sample ∈ [
        ("é\n// <a x=\"1\" x=\"2\"/>\n", Cause.keyRepeated "x".toList, 15),
        ("é\n// <a x=\"1\">\n// <b y=\"\">\n// </a>\n",
          .tagUnmatched "a".toList (.stillOpen "b".toList), 28),
        ("é\n// <a x=\"1\">\n", .tagUnmatched "a".toList .neverClosed, 3)],
      ∃ fault, Forest.parse "//".toList sample.1.toList = .error fault ∧
        fault.cause = sample.2.1 ∧ fault.location.offset = sample.2.2 ∧
        Tag.IsDefectAt "//".toList sample.1.toList fault.location.offset fault.cause := by
  constructor
  · intro sample member
    have failed : (Extractor.standard.parse sample.1.toList).map (fun _ => ()) =
        .error (Defect.locate sample.1.toList ⟨sample.2.1, sample.2.2⟩) := by
      revert sample
      decide +kernel
    have place : (Location.ofOffset sample.1.toList sample.2.2).offset = sample.2.2 := by
      revert sample
      decide +kernel
    have run := map_eq_error_iff.mp failed
    exact ⟨_, run, rfl, place, faults_in_place.1 Extractor.standard sample.1.toList _ run⟩
  · intro sample member
    have failed : (Forest.parse "//".toList sample.1.toList).map (fun _ => ()) =
        .error (Defect.locate sample.1.toList ⟨sample.2.1, sample.2.2⟩) := by
      revert sample
      decide +kernel
    have place : (Location.ofOffset sample.1.toList sample.2.2).offset = sample.2.2 := by
      revert sample
      decide +kernel
    have run := map_eq_error_iff.mp failed
    exact ⟨_, run, rfl, place, faults_in_place.2 "//".toList sample.1.toList _ run⟩

end Scaffold
