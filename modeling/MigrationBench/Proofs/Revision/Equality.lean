import MigrationBench.Proofs.Revision.Zone
import Mathlib.Data.Multiset.Basic
import Mathlib.Data.Set.Card

/-!
# Equality of revisions

Revisions are equal if they agree in all that counts: the labels without order, a timestamp by its
instant and by whether it has an offset, and every other field as it is. So equality is an equivalence
that every operation on revisions keeps, and a set of revisions holds one revision of each class.

* `Draft.Essence`, `Draft.essence` — what counts: `Revision.same_iff_essence`.
* `Revision.SameContent` — what a change is made of: `Revision.SameContent.toChange_alike`.
* `Revision.override_alike`, `Revision.toChange_alike` — equal revisions are overridden and projected alike.
* `Revision.equality`, `Revision.length_distinct` — the classes, and the number of revisions in a set.
* `Revision.collectBy_eq_distinct` — a set that looks its members up by a hash.
* `Revision.same_congruence` — **equality is a congruence**.
-/

namespace MigrationBench

/-- Two maps of labels hold the same pairs, in any order. -/
theorem LabelMap.sameEntries_iff {m n : LabelMap} : m.sameEntries n = true ↔ m.pairs.Perm n.pairs := by
  rw [sameEntries, Bool.and_eq_true, beq_iff_eq, List.all_eq_true]
  simp only [List.contains_iff_mem]
  constructor
  · rintro ⟨hlength, hsubset⟩
    have hnodup : m.pairs.Nodup := m.nodup.of_map
    exact (List.subperm_of_subset hnodup hsubset).perm_of_length_le hlength.ge
  · intro hperm
    exact ⟨hperm.length_eq, fun p hp => hperm.mem_iff.1 hp⟩

/-! ### What counts -/

/-- What counts for the equality of revisions. A timestamp is told by whether it has an offset and by its
instant, and labels have no order. -/
structure Draft.Essence where
  reference : Option String
  message : Option String
  author : Option Author
  changesBase : BaseChoice
  timestamp : Option (Bool × Int)
  contextReference : Option String
  referenceLabels : Option (Multiset (String × String))
  matchesGlob : Option Bool

/-- What counts in a draft. -/
def Draft.essence (d : Draft) : Draft.Essence where
  reference := d.reference
  message := d.message
  author := d.author
  changesBase := d.changesBase
  timestamp := d.timestamp.map fun t => (t.offset.isSome, t.instant)
  contextReference := d.contextReference
  referenceLabels := d.referenceLabels.map fun labels => labels.pairs
  matchesGlob := d.matchesGlob

/-- A new value for a field counts in the same way in all drafts. -/
theorem Override.essence_apply {d e : Draft} (h : d.essence = e.essence) (o : Override) :
    (o.apply d).essence = (o.apply e).essence := by
  simp only [Draft.essence, Draft.Essence.mk.injEq] at h
  obtain ⟨hreference, hmessage, hauthor, hbase, htimestamp, hcontext, hlabels, hglob⟩ := h
  cases o <;>
    simp only [apply, Draft.essence, hreference, hmessage, hauthor, hbase, htimestamp, hcontext, hlabels,
      hglob]

/-- Two changes record the same. -/
structure Change.Agrees (c d : Change) : Prop where
  ref : c.ref = d.ref
  author : c.author = d.author
  message : c.message = d.message
  dateTime : c.dateTime = d.dateTime
  labels : c.labels = d.labels
  summary : c.summary = d.summary

namespace Revision

variable {r s : Revision} {p : Policy} {zone : Offset}

theorem sameTimestamp_iff {t t' : Option Stamp} :
    sameTimestamp t t' = true ↔
      t.map (fun t => (t.offset.isSome, t.instant)) = t'.map fun t => (t.offset.isSome, t.instant) := by
  cases t with
  | none => cases t' <;> simp [sameTimestamp]
  | some s => cases t' <;> simp [sameTimestamp, Stamp.same_iff]

/-- **Revisions are equal** if they agree in what counts. -/
theorem same_iff_essence : r.same s = true ↔ r.toDraft.essence = s.toDraft.essence := by
  simp only [same, Bool.and_eq_true, beq_iff_eq, LabelMap.sameEntries_iff, sameTimestamp_iff, Draft.essence,
    toDraft, Draft.Essence.mk.injEq, Option.some.injEq, BaseChoice.given.injEq, Option.map_some,
    Multiset.coe_eq_coe, and_assoc]

theorem same_equivalence : Equivalence fun r s : Revision => r.same s = true := by
  constructor
  · intro r
    exact same_iff_essence.2 rfl
  · intro r s h
    exact same_iff_essence.2 (same_iff_essence.1 h).symm
  · intro r s t h h'
    exact same_iff_essence.2 ((same_iff_essence.1 h).trans (same_iff_essence.1 h'))

/-! ### Operations on equal revisions -/

theorem message_of_same (h : r.same s = true) : r.message = s.message :=
  Option.some.inj (congrArg Draft.Essence.message (same_iff_essence.1 h))

/-- Revisions with one message declare the same labels, in the same order. -/
theorem descriptionLabels_of_message (h : r.message = s.message) :
    r.descriptionLabels = s.descriptionLabels := by
  have hlabels := r.labels_eq
  rw [h, s.labels_eq] at hlabels
  exact (Except.ok.inj hlabels).symm

theorem descriptionLabels_of_same (h : r.same s = true) : r.descriptionLabels = s.descriptionLabels :=
  descriptionLabels_of_message (message_of_same h)

/-- **Equal revisions are overridden alike.** -/
theorem override_alike (h : r.same s = true) (o : Override) :
    Steps.Alike (fun r' s' => r'.same s' = true) (r.override o) (s.override o) := by
  cases hr : r.override o with
  | error fault =>
    rw [override_of_fault? (override_eq_error_iff.1 hr)]
    exact .fault fault
  | ok r' =>
    obtain ⟨s', hs⟩ := s.exists_override (isAllowed_of_override hr)
    rw [hs]
    refine .answer r' s' (same_iff_essence.2 ?_)
    rw [(override_eq_ok_iff.1 hr).2, (override_eq_ok_iff.1 hs).2]
    exact o.essence_apply (same_iff_essence.1 h)

/-- Two revisions agree in what a change is made of: the reference, the message, the author, and the
instant of the timestamp. -/
structure SameContent (r s : Revision) : Prop where
  reference : r.reference = s.reference
  message : r.message = s.message
  author : r.author = s.author
  instant : r.timestamp.map Stamp.instant = s.timestamp.map Stamp.instant

theorem sameContent_of_same (h : r.same s = true) : SameContent r s := by
  have hessence := same_iff_essence.1 h
  have htimestamp : r.timestamp.map (fun t => (t.offset.isSome, t.instant))
      = s.timestamp.map fun t => (t.offset.isSome, t.instant) := congrArg Draft.Essence.timestamp hessence
  refine ⟨Option.some.inj (congrArg Draft.Essence.reference hessence), message_of_same h,
    Option.some.inj (congrArg Draft.Essence.author hessence), ?_⟩
  have hinstants := congrArg (Option.map Prod.snd) htimestamp
  rwa [Option.map_map, Option.map_map] at hinstants

namespace SameContent

theorem changeAt_agrees (h : SameContent r s) (p : Policy) (dateTime : Stamp) :
    (r.changeAt p dateTime).Agrees (s.changeAt p dateTime) := by
  have hchosen : (r.changeAt p dateTime).author = (s.changeAt p dateTime).author := by
    rw [changeAt, changeAt, h.author]
  have hfirst : (r.changeAt p dateTime).firstLine = (s.changeAt p dateTime).firstLine :=
    congrArg Text.firstLine h.message
  have href : (r.changeAt p dateTime).ref = (s.changeAt p dateTime).ref := h.reference
  refine ⟨h.reference, hchosen, h.message, rfl, descriptionLabels_of_message h.message, ?_⟩
  rw [Change.summary, Change.summary, href, hchosen, hfirst]
  rfl

/-- **Revisions that agree in what a change is made of** are projected alike. -/
theorem toChange_alike (h : SameContent r s) (p : Policy) (zone : Offset) :
    Steps.Alike Change.Agrees (r.toChange p zone) (s.toChange p zone) := by
  have hinstant := h.instant
  cases hr : r.timestamp with
  | none =>
    rw [hr, Option.map_none] at hinstant
    have hs : s.timestamp = none := Option.map_eq_none_iff.1 hinstant.symm
    rw [toChange_eq, toChange_eq, hr, hs, h.reference]
    exact .fault _
  | some t =>
    rw [hr, Option.map_some] at hinstant
    obtain ⟨t', hs, hmoment⟩ := Option.map_eq_some_iff.1 hinstant.symm
    rw [toChange_of_timestamp hr, toChange_of_timestamp hs, hmoment]
    cases Stamp.ofInstant? t.instant zone with
    | none => exact .fault _
    | some dateTime => exact .answer _ _ (h.changeAt_agrees p dateTime)

end SameContent

/-- **Equal revisions are projected alike.** -/
theorem toChange_alike (h : r.same s = true) (p : Policy) (zone : Offset) :
    Steps.Alike Change.Agrees (r.toChange p zone) (s.toChange p zone) :=
  (sameContent_of_same h).toChange_alike p zone

/-! ### Sets of revisions -/

/-- The equality of revisions and its classes. -/
def equality : Setoid Revision where
  r r s := r.same s = true
  iseqv := same_equivalence

/-- The class of the revisions that are equal to a revision. -/
def classOf (r : Revision) : Quotient equality :=
  Quotient.mk equality r

theorem classOf_eq_iff : classOf r = classOf s ↔ r.same s = true :=
  Quotient.eq (r := equality)

/-- A set with a revision added: it stays as it is if an equal one is in it. -/
def addNew (kept : List Revision) (r : Revision) : List Revision :=
  if kept.any (·.same r) then kept else kept ++ [r]

theorem distinct_eq_foldl (rs : List Revision) : distinct rs = rs.foldl addNew [] := rfl

theorem any_same_iff {kept : List Revision} :
    kept.any (·.same r) = true ↔ classOf r ∈ kept.map classOf := by
  simp only [List.any_eq_true, List.mem_map, classOf_eq_iff]

theorem mem_classes_addNew {kept : List Revision} {q : Quotient equality} :
    q ∈ (addNew kept r).map classOf ↔ q ∈ kept.map classOf ∨ q = classOf r := by
  rw [addNew]
  split
  · rename_i hany
    refine ⟨Or.inl, ?_⟩
    rintro (h | rfl)
    · exact h
    · exact any_same_iff.1 hany
  · simp

theorem nodup_classes_addNew {kept : List Revision} (h : (kept.map classOf).Nodup) :
    ((addNew kept r).map classOf).Nodup := by
  rw [addNew]
  split
  · exact h
  · rename_i hany
    rw [any_same_iff] at hany
    rw [List.map_append, List.map_singleton, ← List.concat_eq_append]
    exact h.concat hany

/-- A set has the classes of its revisions, each of them once. -/
theorem classes_foldl_addNew (rs : List Revision) {kept : List Revision} (h : (kept.map classOf).Nodup) :
    ((rs.foldl addNew kept).map classOf).Nodup ∧
      ∀ q, q ∈ (rs.foldl addNew kept).map classOf ↔ q ∈ kept.map classOf ∨ q ∈ rs.map classOf := by
  induction rs generalizing kept with
  | nil => exact ⟨h, fun q => by simp⟩
  | cons r rs ih =>
    obtain ⟨hnodup, hmem⟩ := ih (nodup_classes_addNew h)
    refine ⟨hnodup, fun q => ?_⟩
    rw [List.foldl_cons, hmem, mem_classes_addNew, List.map_cons, List.mem_cons, or_assoc]

/-- **The number of revisions in a set** is the number of their classes. -/
theorem length_distinct (rs : List Revision) :
    (distinct rs).length = (classOf '' {r | r ∈ rs}).ncard := by
  classical
  have hclasses : ((rs.foldl addNew []).map classOf).Nodup ∧
      ∀ q, q ∈ (rs.foldl addNew []).map classOf ↔ q ∈ [].map classOf ∨ q ∈ rs.map classOf :=
    classes_foldl_addNew rs List.nodup_nil
  obtain ⟨hnodup, hmem⟩ := hclasses
  rw [← distinct_eq_foldl] at hnodup hmem
  have hset : classOf '' {r | r ∈ rs} = (((distinct rs).map classOf).toFinset : Set (Quotient equality)) := by
    ext q
    rw [List.coe_toFinset]
    exact Iff.trans (by simp) (hmem q).symm
  rw [hset, Set.ncard_coe_finset, List.toFinset_card_of_nodup hnodup, List.length_map]

/-- What the hash of a revision is made of: all that counts but the labels. -/
def hashed (r : Revision) : Draft.Essence :=
  { r.toDraft.essence with referenceLabels := none }

/-- A set of revisions that looks them up by a hash before it compares them. -/
def collectBy (hash : Draft.Essence → Nat) (rs : List Revision) : List Revision :=
  rs.foldl (fun kept r => if kept.any (fun k => hash k.hashed == hash r.hashed && k.same r) then kept
    else kept ++ [r]) []

/-- Equal revisions have one hash, so the hash hides no equal revision. -/
theorem collectBy_eq_distinct (hash : Draft.Essence → Nat) (rs : List Revision) :
    collectBy hash rs = distinct rs := by
  have hfound : ∀ k r : Revision, (hash k.hashed == hash r.hashed && k.same r) = k.same r := by
    intro k r
    cases h : k.same r with
    | false => rw [Bool.and_false]
    | true =>
      have hhashed : k.hashed = r.hashed := by
        rw [hashed, hashed, same_iff_essence.1 h]
      rw [hhashed, beq_self_eq_true, Bool.and_true]
  simp only [collectBy, hfound, distinct]

/-- **Equality is a congruence.** Equality of revisions is an equivalence: revisions are equal if they
agree in all fields, where the labels of the reference have no order, and timestamps are compared by
their instants if both have an offset or both have none. Equal revisions declare the same labels, take
the same new values and are equal afterwards, and have changes that record the same, or they fail by the
same fault. A set of revisions holds one of each class, in whatever order they are put into it, and a
set that looks them up by a hash does the same. -/
theorem same_congruence :
    Equivalence (fun r s : Revision => r.same s = true) ∧
    (∀ r s : Revision, r.same s = true ↔ r.toDraft.essence = s.toDraft.essence) ∧
    (∀ r s : Revision, r.same s = true →
      r.descriptionLabels = s.descriptionLabels ∧
      (∀ o, Steps.Alike (fun r' s' => r'.same s' = true) (r.override o) (s.override o)) ∧
      ∀ p zone, Steps.Alike Change.Agrees (r.toChange p zone) (s.toChange p zone)) ∧
    ∀ rs, (distinct rs).length = (classOf '' {r | r ∈ rs}).ncard ∧
      (∀ rs', rs.Perm rs' → (distinct rs').length = (distinct rs).length) ∧
      ∀ hash, collectBy hash rs = distinct rs := by
  refine ⟨same_equivalence, fun r s => same_iff_essence, ?_, fun rs => ?_⟩
  · intro r s h
    exact ⟨descriptionLabels_of_same h, override_alike h, toChange_alike h⟩
  · refine ⟨length_distinct rs, fun rs' hperm => ?_, fun hash => collectBy_eq_distinct hash rs⟩
    have hmembers : {r | r ∈ rs'} = {r | r ∈ rs} := Set.ext fun r => hperm.mem_iff.symm
    rw [length_distinct, length_distinct, hmembers]

/-- A revision with two labels, and with a timestamp at midnight in UTC. -/
def midnightRevision : Revision :=
  { plainRevision with
    timestamp := some ⟨marchMorning.date, Clock.midnight, some Offset.utc⟩
    referenceLabels := ⟨[("a", "1"), ("b", "2")], by decide⟩ }

/-- The same revision with the labels in the other order, and with the timestamp one hour to the east. -/
def easternRevision : Revision :=
  { plainRevision with
    timestamp := some ⟨marchMorning.date, Clock.ofMicros 3600000000, some hourEast⟩
    referenceLabels := ⟨[("b", "2"), ("a", "1")], by decide⟩ }

/-- Both are equal, have changes that record the same, and are one revision in a set. -/
theorem same_congruence_of_eastern :
    midnightRevision.same easternRevision = true ∧
    Steps.Alike Change.Agrees (midnightRevision.toChange ⟨fun _ => true, Author.placeholder⟩ hourEast)
      (easternRevision.toChange ⟨fun _ => true, Author.placeholder⟩ hourEast) ∧
    (classOf '' {r | r ∈ [midnightRevision, easternRevision]}).ncard = 1 := by
  have hsame : midnightRevision.same easternRevision = true := by decide +kernel
  obtain ⟨-, -, hkeeps, hsets⟩ := same_congruence
  obtain ⟨hcount, -⟩ := hsets [midnightRevision, easternRevision]
  refine ⟨hsame, (hkeeps _ _ hsame).2.2 _ _, ?_⟩
  rw [← hcount]
  decide +kernel

end Revision

end MigrationBench
