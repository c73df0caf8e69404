import Nbd.FlagSet.Edit
import Nbd.Message.Basic
import Nbd.Proofs.Contents

/-! # Editing a set of flags

`FlagSet.edits` edits a word; `Edit.Does` says what each edit does to a set of flags and a set of
undefined bits, without any word.  The two keep in step over every run, whatever raw words the
edits come with (`FlagSet.edits_follow`).  Most edits treat flags and undefined bits alike.  A
checked replacement refuses undefined bits, a truncated one and the complement drop them, and
all else keeps them.
-/

namespace Nbd

variable {F : Type} [Flag F]

/-! ## What edits do -/

/-- The flags and undefined bits that a raw word stands for. -/
def Contents.ofWord (word : BitVec (Flag.width F)) : Contents F := FlagSet.contents ⟨word⟩

open Contents (ofWord)

/-- What an edit makes of the contents, and what it reports. -/
inductive Edit.Does : Edit F → (before after : Contents F) → Edit.Report F → Prop where
  | accepted {word} {c : Contents F} : (ofWord word : Contents F).undefined = ∅ →
      Does (.replaceChecked word) c (ofWord word) (.verdict true)
  | refused {word} {c : Contents F} : (ofWord word : Contents F).undefined ≠ ∅ →
      Does (.replaceChecked word) c c (.verdict false)
  | truncated {word c} : Does (.replaceTruncated word) c ⟨(ofWord word).named, ∅⟩ .done
  | replaced {word c} : Does (.replace word) c (ofWord word) .done
  | found {name : String} {f : F} {c} : Vocabulary.name f = name →
      Does (.replaceNamed name) c ⟨{f}, ∅⟩ (.verdict true)
  | undeclared {name : String} {c : Contents F} : (∀ f : F, Vocabulary.name f ≠ name) →
      Does (.replaceNamed name) c c (.verdict false)
  | collected {words c} : Does (.collect words) c (.gather (words.map ofWord)) .done
  | cleared {c} : Does .clear c ∅ .done
  | filled {c} : Does .fill c ⟨Set.univ, ∅⟩ .done
  | inserted {word c} : Does (.insert word) c (c ∪ ofWord word) .done
  | removed {word c} : Does (.remove word) c (c \ ofWord word) .done
  | toggled {word c} : Does (.toggle word) c (c.exclusive (ofWord word)) .done
  | intersected {word c} : Does (.intersect word) c (c ∩ ofWord word) .done
  | switchedOn {word c} : Does (.assign word true) c (c ∪ ofWord word) .done
  | switchedOff {word c} : Does (.assign word false) c (c \ ofWord word) .done
  | complemented {c : Contents F} : Does .complement c ⟨c.namedᶜ, ∅⟩ .done
  | contains {word} {c : Contents F} {holds} : (holds = true ↔ ofWord word ⊆ c) →
      Does (.contains word) c c (.verdict holds)
  | intersects {word} {c : Contents F} {holds} : (holds = true ↔ c.Overlaps (ofWord word)) →
      Does (.intersects word) c c (.verdict holds)
  | equals {word} {c : Contents F} {holds} : (holds = true ↔ c = ofWord word) →
      Does (.equals word) c c (.verdict holds)
  /-- One word for each flag, from the lowest bit to the highest. -/
  | parted {flags : List F} {words} {c : Contents F} : (∀ f, f ∈ flags ↔ f ∈ c.named) →
      (flags.map Flag.position).Pairwise (· < ·) → c.undefined = ∅ →
      words.map ofWord = flags.map (fun f => (⟨{f}, ∅⟩ : Contents F)) →
      Does .parts c c (.parts words)
  /-- The undefined bits come last, all in one word. -/
  | partedUndefined {flags : List F} {words} {c : Contents F} : (∀ f, f ∈ flags ↔ f ∈ c.named) →
      (flags.map Flag.position).Pairwise (· < ·) → c.undefined ≠ ∅ →
      words.map ofWord = flags.map (fun f => (⟨{f}, ∅⟩ : Contents F)) ++ [⟨∅, c.undefined⟩] →
      Does .parts c c (.parts words)

/-- Edits in order, each on the contents that the one before it left. -/
inductive Edit.Run : List (Edit F) → Contents F → List (FlagSet F × Edit.Report F) → Prop where
  | nil {c} : Run [] c []
  | cons {e : Edit F} {es c s report later} : e.Does c (FlagSet.contents s) report →
      Run es s.contents later → Run (e :: es) c ((s, report) :: later)

/-! ## One edit -/

namespace FlagSet

theorem ofBits?_of_undefined_eq_empty {word : BitVec (Flag.width F)}
    (none : (ofWord word : Contents F).undefined = ∅) :
    (ofBits? word : Option (FlagSet F)) = some ⟨word⟩ :=
  if_pos (undefined_eq_zero_iff_contents.mpr none)

theorem ofBits?_of_undefined_ne_empty {word : BitVec (Flag.width F)}
    (some : (ofWord word : Contents F).undefined ≠ ∅) :
    (ofBits? word : Option (FlagSet F)) = none :=
  if_neg fun zero => some (undefined_eq_zero_iff_contents.mp zero)

theorem edit_does (s : FlagSet F) (e : Edit F) :
    e.Does s.contents (s.edit e).1.contents (s.edit e).2 := by
  cases e with
  | replaceChecked word =>
    rw [edit]
    by_cases none : (ofWord word : Contents F).undefined = ∅
    · rw [ofBits?_of_undefined_eq_empty none]
      exact .accepted none
    · rw [ofBits?_of_undefined_ne_empty none]
      exact .refused none
  | replaceTruncated word =>
    rw [edit, contents_truncate]
    exact .truncated
  | replace word => exact .replaced
  | replaceNamed name =>
    rw [edit, ofName?, Vocabulary.ofName?]
    cases looked : (Vocabulary.all : List F).find? fun f => Vocabulary.name f == name with
    | some f =>
      have named : Vocabulary.name f = name := by simpa using List.find?_some looked
      rw [Option.map_some, replaceWith, contents_singleton]
      exact .found named
    | none =>
      refine .undeclared fun f named => ?_
      have absent := List.find?_eq_none.mp looked f (Vocabulary.mem_all f)
      exact absurd (beq_iff_eq.mpr named) absent
  | collect words =>
    rw [edit, contents_unions, List.map_map]
    exact .collected
  | clear =>
    rw [edit, contents_empty]
    exact .cleared
  | fill =>
    rw [edit, contents_all]
    exact .filled
  | insert word =>
    rw [edit, contents_union]
    exact .inserted
  | remove word =>
    rw [edit, contents_difference]
    exact .removed
  | toggle word =>
    rw [edit, contents_symmetricDifference]
    exact .toggled
  | intersect word =>
    rw [edit, contents_intersection]
    exact .intersected
  | assign word on =>
    cases on with
    | true =>
      rw [edit, assign, if_pos rfl, contents_union]
      exact .switchedOn
    | false =>
      rw [edit, assign, if_neg Bool.false_ne_true, contents_difference]
      exact .switchedOff
  | complement =>
    rw [edit, contents_complement]
    exact .complemented
  | contains word => exact .contains contains_iff
  | intersects word => exact .intersects intersects_iff
  | equals word =>
    apply Edit.Does.equals
    rw [decide_eq_true_iff, ofWord, contents_injective.eq_iff]
  | parts =>
    have words : (s.members.map bit).map ofWord =
        s.members.map fun f => (⟨{f}, ∅⟩ : Contents F) := by
      rw [List.map_map]
      exact List.map_congr_left fun f _ => contents_singleton f
    rw [edit, parts]
    by_cases none : s.undefined = 0#_
    · rw [if_pos none, List.append_nil]
      exact .parted (fun f => mem_members) members_ascending
        (undefined_eq_zero_iff_contents.mp none) words
    · rw [if_neg none]
      refine .partedUndefined (fun f => mem_members) members_ascending
        (fun empty => none (undefined_eq_zero_iff_contents.mpr empty)) ?_
      rw [List.map_append, words]
      exact congrArg (_ ++ [·]) contents_undefined

/-! ## Runs of edits -/

theorem edits_run (s : FlagSet F) (es : List (Edit F)) : Edit.Run es s.contents (s.edits es) := by
  induction es generalizing s with
  | nil => exact .nil
  | cons e es ih => exact .cons (edit_does s e) (ih _)

/-- Words stand for pairs of a set of flags and a set of undefined bits, each for one of its own.
    Any run of edits does to the word what it does to the pair, and the tests of a word that has
    been reached are tests of its pair. -/
theorem edits_follow (F : Type) [Flag F] :
    Function.Bijective (contents : FlagSet F → Contents F) ∧
    (∀ es : List (Edit F), Edit.Run es ∅ ((empty : FlagSet F).edits es)) ∧
    ∀ s : FlagSet F, (s.isEmpty = true ↔ s.contents = ∅) ∧
      (s.isAll = true ↔ s.contents.named = Set.univ) ∧
      (∀ f, f ∈ s.members ↔ f ∈ s.contents.named) ∧
      (s.members.map Flag.position).Pairwise (· < ·) := by
  refine ⟨contents_bijective, ?_, ?_⟩
  · intro es
    rw [← contents_empty]
    exact edits_run empty es
  · intro s
    exact ⟨isEmpty_iff, isAll_iff, fun f => mem_members, members_ascending⟩

/-- Words of `F` are `width` bits wide and have these flags, by name and bit; each stands for a
    pair of sets of its own, and edits of words are edits of the pairs. -/
structure Edited (F : Type) [Flag F] (width : Nat) (flags : List (String × Nat)) : Prop where
  width_eq : Flag.width F = width
  declared : (Vocabulary.all : List F).map (fun f => (Vocabulary.name f, Flag.position f)) = flags
  bijective : Function.Bijective (contents : FlagSet F → Contents F)
  run : ∀ es : List (Edit F), Edit.Run es ∅ ((empty : FlagSet F).edits es)

/-- The flag words of the protocol, and the traits of commands. -/
theorem edits_follow_declared :
    Edited HandshakeFlag 16 [("FIXED_NEWSTYLE", 0), ("NO_ZEROES", 1)] ∧
    Edited ClientFlag 32 [("C_FIXED_NEWSTYLE", 0), ("C_NO_ZEROES", 1)] ∧
    Edited CommandFlag 16 [("FUA", 0), ("MAY_TRIM", 1), ("DF", 2)] ∧
    Edited TransmissionFlag 16 [("HAS_FLAGS", 0), ("READ_ONLY", 1), ("SEND_FLUSH", 2),
      ("SEND_FUA", 3), ("ROTATIONAL", 4), ("SEND_TRIM", 5), ("SEND_WRITE_ZEROES", 6),
      ("SEND_DF", 7), ("SEND_CLOSE", 8)] ∧
    Edited ChunkFlag 16 [("DONE", 0)] ∧
    Edited CommandTrait 8 [("CHECK_LENGTH_OFFSET", 0), ("REQ_PAYLOAD", 1),
      ("REQ_FAKE_PAYLOAD", 2), ("REP_PAYLOAD", 3), ("CHECK_NOT_READ_ONLY", 4),
      ("SET_DISCONNECT_RECEIVED", 5)] := by
  have edited (F : Type) [Flag F] : Edited F (Flag.width F)
      ((Vocabulary.all : List F).map fun f => (Vocabulary.name f, Flag.position f)) := by
    obtain ⟨bijective, run, _⟩ := edits_follow F
    exact ⟨rfl, rfl, bijective, run⟩
  exact ⟨edited HandshakeFlag, edited ClientFlag, edited CommandFlag, edited TransmissionFlag,
    edited ChunkFlag, edited CommandTrait⟩

end FlagSet

end Nbd
