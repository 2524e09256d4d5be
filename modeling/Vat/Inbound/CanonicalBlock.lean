import Vat.Identity.ReferenceParts
import Vat.Inbound.FeedbackLoop
import Vat.Tracker.ReadBack

/-!
# A canonical block read back

What VAT posts as the canonical form of a decision is read by the standard grammar. The grammar ends
a text at a blank line and at a line that begins with a bracket, and a justification also at a line
of compensating controls; and a block ends where the next one starts. So the texts are read back
exactly if nothing in them looks like that.

Source: `backend/app/adapters/linear.py`, lines 160–166, 240–292 and 1804–1814.

## Main definitions

* `endsBlock`, `endsJustification`: where the grammar ends a text.
* `readTexts`: what is read of the texts of a block.
* `Recoverable`: nothing in the texts of a decision looks like an end.

## Main results

* `parseStandard_blockWith`: what is read of a block.
* `strip_breakAt_eq_iff`: a trimmed text is read back exactly if it has no place to stop.
* `canonical_round_trip_iff`: which decisions are read back.
-/

namespace Vat

open Regex VatRegex

section Grammar

variable [Unicode]

/-! ### Where a text ends -/

/-- A blank line, or a line that begins with a bracket. -/
def endsBlock : Str → Bool
  | c :: d :: _ => c == '\n' && (d == '\n' || Pattern.foldsTo '[' d)
  | _ => false

/-- A line of compensating controls. -/
def startsControls : Str → Bool
  | c :: s => c == '\n' && agrees Pattern.foldsTo (str "compensating-controls:") s
  | [] => false

/-- Where a justification ends. -/
def endsJustification (s : Str) : Bool := startsControls s || endsBlock s

/-- The rest of the grammar after the compensating controls. -/
def afterControls : VatRegex := .seq (endsBefore [newline, lit "["]) .empty

/-- The rest of the grammar after the justification. -/
def afterJustification : VatRegex := .seq (.opt strictControls) afterControls

variable {g : Groups Char VatGroup} {s : Str}

/-- After the controls, the text has to end. -/
theorem run_afterControls :
    run afterControls g s = if s = [] ∨ endsBlock s then [(g, s)] else [] := by
  cases s with
  | nil => rfl
  | cons c s =>
    by_cases hc : c = '\n'
    · cases s with
      | nil =>
        simp [afterControls, endsBefore, run_seq, run_ahead, run_alt, run_atEnd, newline, lit,
          run_literal, agrees, endsBlock, hc, str]
      | cons d s =>
        by_cases hd : d = '\n'
        · simp [afterControls, endsBefore, run_seq, run_ahead, run_alt, run_atEnd, newline, lit,
            run_literal, endsBlock, hc, hd]
        · by_cases hbracket : Pattern.foldsTo '[' d <;>
            simp [afterControls, endsBefore, run_seq, run_ahead, run_alt, run_atEnd, newline, lit,
              run_literal, agrees, endsBlock, hc, hd, hbracket, str]
    · have hends : endsBlock (c :: s) = false := by
        cases s with
        | nil => rfl
        | cons d s => simp [endsBlock, hc]
      simp [afterControls, endsBefore, run_seq, run_ahead, run_alt, run_atEnd, newline, hc, hends]

theorem run_afterControls_eq_nil_iff :
    run afterControls g s = [] ↔ s ≠ [] ∧ endsBlock s = false := by
  rw [run_afterControls]
  by_cases h : s = [] ∨ endsBlock s
  · rw [if_pos h]
    exact iff_of_false (List.cons_ne_nil _ _) fun hnot =>
      h.elim hnot.1 fun hends => Bool.false_ne_true (hnot.2.symm.trans hends)
  · rw [if_neg h]
    exact iff_of_true rfl ⟨fun hs => h (.inl hs), Bool.eq_false_iff.mpr fun hs => h (.inr hs)⟩

/-- A line of controls is read behind its header. -/
theorem run_controls : run (.seq strictControls afterControls) g s =
    if startsControls s then
      run (.seq spaces (.seq (.group .compensating anything) afterControls)) g (s.drop 23)
    else [] := by
  have hassoc : run (.seq strictControls afterControls) g s =
      run (.seq newline (.seq (lit "compensating-controls:")
        (.seq spaces (.seq (.group .compensating anything) afterControls)))) g s := by
    simp only [strictControls, Regex.all, run_seq, List.flatMap_assoc, run_empty,
      List.flatMap_singleton]
  rw [hassoc]
  cases s with
  | nil => rfl
  | cons c s =>
    have hlength : (str "compensating-controls:").length = 22 := rfl
    rw [run_seq, newline]
    by_cases hc : c = '\n'
    · by_cases hcontrols : agrees Pattern.foldsTo (str "compensating-controls:") s <;>
        simp [hc, lit, run_literal_seq, startsControls, hcontrols, hlength]
    · simp [startsControls, hc]

theorem run_afterJustification : run afterJustification g s =
    run (.seq strictControls afterControls) g s ++ run afterControls g s := by
  rw [afterJustification, Regex.opt, run_alt_seq, run_empty_seq]

/-- A line of controls can be read. -/
theorem exists_mem_run_controls (h : startsControls s) :
    ∃ m, m ∈ run (.seq strictControls afterControls) g s := by
  rw [run_controls, if_pos h]
  refine exists_mem_run_seq mem_run_spaces_nil ?_
  refine exists_mem_run_seq (mem_run_group.mpr ⟨g, [], mem_run_many.mpr
    ⟨rfl, s.drop 23, by simp, (List.append_nil _).symm⟩, rfl⟩) ?_
  rw [run_afterControls, if_pos (.inl rfl)]
  exact ⟨_, List.mem_singleton_self _⟩

theorem run_afterJustification_eq_nil_iff :
    run afterJustification g s = [] ↔ s ≠ [] ∧ endsJustification s = false := by
  rw [run_afterJustification, List.append_eq_nil_iff, run_afterControls_eq_nil_iff,
    endsJustification, Bool.or_eq_false_iff]
  constructor
  · rintro ⟨hcontrols, hne, hends⟩
    refine ⟨hne, ?_, hends⟩
    by_contra hstarts
    obtain ⟨m, hm⟩ := exists_mem_run_controls (g := g) (Bool.not_eq_false _ |>.mp hstarts)
    rw [hcontrols] at hm
    cases hm
  · rintro ⟨hne, hstarts, hends⟩
    rw [run_controls, hstarts]
    exact ⟨rfl, hne, hends⟩

/-- The controls of a block are read up to their end. -/
theorem head?_afterJustification (h : s = [] ∨ endsJustification s) :
    (run afterJustification g s).head? =
      if startsControls s then
        some (Function.update g .compensating
          (some (breakAt endsBlock ((s.drop 23).dropWhile Str.isSpace)).1),
          (breakAt endsBlock ((s.drop 23).dropWhile Str.isSpace)).2)
      else some (g, s) := by
  rw [run_afterJustification, run_controls]
  by_cases hstarts : startsControls s
  · rw [if_pos hstarts, if_pos hstarts]
    have hlazy := head?_run_lazy (b := afterControls) (i := VatGroup.compensating)
      (fun g t => run_afterControls_eq_nil_iff) g ((s.drop 23).dropWhile Str.isSpace)
    rw [run_afterControls, if_pos (breakAt_snd _)] at hlazy
    have hspaces := head?_run_seq (head?_run_many_dropWhile _ g (s.drop 23)) hlazy
    rw [List.head?_append]
    exact congrArg (Option.or · _) hspaces
  · rw [if_neg hstarts, if_neg hstarts, List.nil_append, run_afterControls, if_pos]
    · rfl
    · rw [endsJustification, Bool.eq_false_iff.mpr hstarts] at h
      exact h

/-! ### The header of a block -/

/-- The status in a canonical block. -/
def statusText (status : Str) : Str := replaceChar ' ' '-' (Unicode.lower status)

/-- The statuses of the strict grammar. -/
def strictStatus : VatRegex :=
  .alt (lit "false-positive") (.alt (lit "not-applicable") (.alt (lit "risk-accepted")
    (.alt (lit "mitigated") (lit "duplicate"))))

variable {cveId status : Str}

theorem statusText_eq (h : status ∈ statusCanonical) :
    statusText status = replaceChar ' ' '-' (status.map Char.toLower) := by
  have hascii : (statusCanonical.all fun s => s.all fun c => c.toNat < 128) = true := by decide
  rw [statusText, Unicode.lower_of_ascii status fun c hc =>
    of_decide_eq_true (List.all_eq_true.mp (List.all_eq_true.mp hascii status h) c hc)]

theorem statusText_ne_nil (h : status ∈ statusCanonical) : statusText status ≠ [] := by
  have hne : (statusCanonical.all fun s => replaceChar ' ' '-' (s.map Char.toLower) != []) = true :=
    by decide
  rw [statusText_eq h]
  exact bne_iff_ne.mp (List.all_eq_true.mp hne status h)

theorem all_statusText (h : status ∈ statusCanonical) {p : Char → Bool} (hp : (statusCanonical.all
    fun s => (replaceChar ' ' '-' (s.map Char.toLower)).all p) = true) :
    (statusText status).all p = true := by
  rw [statusText_eq h]
  exact List.all_eq_true.mp hp status h

/-- A canonical status is what its text stands for. -/
theorem lookup_statusText (h : status ∈ statusCanonical) :
    statusMap.lookup (Unicode.lower (statusText status)) = some status := by
  have hlookup : (statusCanonical.all fun s =>
      statusMap.lookup (replaceChar ' ' '-' (s.map Char.toLower)) == some s) = true := by decide
  rw [Unicode.lower_eq_self (all_statusText h (by decide)), statusText_eq h]
  exact eq_of_beq (List.all_eq_true.mp hlookup status h)

/-- The strict grammar reads a canonical status as what it is. -/
theorem run_strictStatus (h : status ∈ statusCanonical) (t : Str) :
    run strictStatus g (statusText status ++ t) = [(g, t)] := by
  have hfold : ∀ letter c : Char, c.toNat < 128 →
      Pattern.foldsTo letter c = decide (c.toLower = letter) :=
    fun letter c hc => Pattern.foldsTo_of_ascii hc
  rw [statusText_eq h]
  simp only [statusCanonical, List.mem_cons, List.not_mem_nil, or_false] at h
  rcases h with rfl | rfl | rfl | rfl | rfl <;>
    simp [strictStatus, run_alt, lit, run_literal, agrees, str, hfold, replaceChar]

/-- A block up to its justification, and what follows. -/
def blockWith (cveId status rest : Str) : Str :=
  str "[VAT]" ++ ' ' :: (cveId ++ '\n' :: (str "status:" ++ ' ' :: (statusText status ++
    '\n' :: (str "justification:" ++ rest))))

/-- The groups of a block up to its justification. -/
def headGroups (cveId status justification : Str) : Groups Char VatGroup :=
  Function.update (Function.update (Function.update (fun _ => none) .cveId (some cveId)) .status
    (some (statusText status))) .justification (some justification)

/-- The strict grammar reads the header, the blanks and a justification up to its end. -/
theorem head?_run_block (hne : cveId ≠ []) (hcve : ∀ c ∈ cveId, Str.isSpace c = false)
    (hstatus : status ∈ statusCanonical) (s : Str) :
    (run vatBlockRe (fun _ => none) (blockWith cveId status s)).head? =
      (run afterJustification (headGroups cveId status
        (breakAt endsJustification (s.dropWhile Str.isSpace)).1)
        (breakAt endsJustification (s.dropWhile Str.isSpace)).2).head? := by
  obtain ⟨n, hn⟩ : ∃ n, (run afterJustification (headGroups cveId status
      (breakAt endsJustification (s.dropWhile Str.isSpace)).1)
      (breakAt endsJustification (s.dropWhile Str.isSpace)).2).head? = some n := by
    rw [← Option.isSome_iff_exists, List.isSome_head?]
    intro hempty
    have hstop := run_afterJustification_eq_nil_iff.mp hempty
    exact (breakAt_snd _).elim hstop.1 fun h => Bool.false_ne_true (hstop.2.symm.trans h)
  rw [hn]
  have hblank : ∀ c ∈ ([' '] : Str), Str.isSpace c := List.all_eq_true.mp (by decide)
  have hstart : ∀ v w : Str, v ≠ [] → (∀ c ∈ v, Str.isSpace c = false) →
      ∀ c ∈ (v ++ w).head?, Str.isSpace c = false := by
    intro v w hv hword c hc
    rw [List.head?_append_of_ne_nil v hv] at hc
    exact hword c (List.mem_of_mem_head? hc)
  have hline : ∀ (d : Char) (w : Str), Str.isSpace d = false →
      ∀ c ∈ (d :: w).head?, Str.isSpace c = false ∧ (c == '\n') = false := by
    intro d w hd c hc
    rw [← Option.some.inj hc]
    refine ⟨hd, beq_false_of_ne ?_⟩
    rintro rfl
    exact absurd hd (by decide)
  have hplain : ∀ c ∈ statusText status, Str.isSpace c = false := by
    have hall := all_statusText (p := fun c => !Str.isSpace c) hstatus (by decide)
    simpa using List.all_eq_true.mp hall
  -- the identifier and the end of its line
  refine head?_run_seq (congrArg List.head? (run_lit_append (u := str "[VAT]") (by decide) (by decide))) ?_
  refine head?_run_seq (head?_run_many (u := [' ']) hblank (hstart cveId _ hne hcve)) ?_
  refine head?_run_seq (head?_run_group (head?_run_plus hne
    (fun c hc => by rw [hcve c hc]; rfl) fun c hc => by rw [← Option.some.inj hc]; decide)) ?_
  refine (congrArg List.head? (run_many_seq_one (by decide) (by decide)
    (hline 's' _ (by decide)))).trans ?_
  -- the status and the end of its line
  refine head?_run_seq (congrArg List.head? (run_lit_append (u := str "status:") (by decide)
    (by decide))) ?_
  refine head?_run_seq (head?_run_many (u := [' ']) hblank
    (hstart _ _ (statusText_ne_nil hstatus) hplain)) ?_
  refine head?_run_seq (head?_run_group (congrArg List.head? (run_strictStatus hstatus _))) ?_
  refine (congrArg List.head? (run_many_seq_one (by decide) (by decide)
    (hline 'j' _ (by decide)))).trans ?_
  -- the justification
  refine head?_run_seq (congrArg List.head? (run_lit_append (u := str "justification:")
    (by decide) (by decide))) ?_
  refine head?_run_seq (head?_run_many_dropWhile _ _ s) ?_
  exact (head?_run_lazy (fun g t => run_afterJustification_eq_nil_iff) _ _).trans hn

/-! ### What is read of a block -/

/-- A block starts here. -/
def startsBlock (s : Str) : Bool := (blockStart.matchStart s).isSome

/-- The justification and the compensating controls that are read of the rest of a block. -/
def readTexts (rest : Str) : Str × Str :=
  let texts := breakAt endsJustification ((breakAt startsBlock rest).1.dropWhile Str.isSpace)
  (Str.strip texts.1,
    if startsControls texts.2 then
      Str.strip (breakAt endsBlock ((texts.2.drop 23).dropWhile Str.isSpace)).1
    else [])

/-- The first grammar reads the text of one block. -/
theorem parseChunk_blockWith [TextMatching] (hne : cveId ≠ [])
    (hcve : ∀ c ∈ cveId, Str.isSpace c = false) (hstatus : status ∈ statusCanonical) (s : Str) :
    parseChunk (blockWith cveId status s) = some ⟨cveId, status,
      Str.strip (breakAt endsJustification (s.dropWhile Str.isSpace)).1,
      if startsControls (breakAt endsJustification (s.dropWhile Str.isSpace)).2 then
        Str.strip (breakAt endsBlock (((breakAt endsJustification (s.dropWhile Str.isSpace)).2.drop
          23).dropWhile Str.isSpace)).1
      else []⟩ := by
  have hblock := head?_run_block hne hcve hstatus s
  have hlookup := lookup_statusText hstatus
  have hcveId : Str.strip cveId = cveId := Str.strip_eq_self hcve
  rw [head?_afterJustification (breakAt_snd _)] at hblock
  by_cases hstarts : startsControls (breakAt endsJustification (s.dropWhile Str.isSpace)).2
  · rw [if_pos hstarts] at hblock ⊢
    simp [parseChunk, search_of_matchStart hblock, resultOf, makeResult, groupText, headGroups,
      Str.orEmpty_some, hlookup, hcveId]
  · rw [if_neg hstarts] at hblock ⊢
    simp [parseChunk, search_of_matchStart hblock, resultOf, makeResult, groupText, headGroups,
      Str.orEmpty_some, hlookup, hcveId]

/-- A block is read up to where the next one starts. -/
theorem parseStandard_blockWith [TextMatching] (hne : cveId ≠ [])
    (hcve : ∀ c ∈ cveId, Str.isSpace c = false) (hstatus : status ∈ statusCanonical) (s : Str) :
    parseStandard (blockWith cveId status s) =
      some ⟨cveId, status, (readTexts s).1, (readTexts s).2⟩ := by
  have hbracket : '[' ∉ str "status:" ++ ' ' :: (statusText status ++ '\n' ::
      str "justification:") := by
    have hall := all_statusText (p := fun c => c != '[') hstatus (by decide)
    have hnot : '[' ∉ statusText status := fun hmem => by
      simpa using List.all_eq_true.mp hall _ hmem
    simp [str, hnot]
  have hstarts := matchesAfter_block s hne hcve hbracket
  have hlines : str "[VAT]" ++ ' ' :: (cveId ++ '\n' :: ((str "status:" ++ ' ' ::
      (statusText status ++ '\n' :: str "justification:")) ++ s)) = blockWith cveId status s := by
    simp [blockWith]
  rw [hlines] at hstarts
  have hfirst : ∃ chunks, blockChunks ((blockStart.finditer (blockWith cveId status s)).map
      Prod.snd) = blockWith cveId status (breakAt startsBlock s).1 :: chunks := by
    rw [finditer, hstarts, List.map_cons]
    have hhead : ((blockStart.matchesAfter 0 s).map Prod.snd).head? =
        if (breakAt startsBlock s).2 = [] then none else some (breakAt startsBlock s).2 :=
      head?_matchesAfter s
    have happend := @breakAt_append _ startsBlock s
    cases hrest : (blockStart.matchesAfter 0 s).map Prod.snd with
    | nil =>
      have hempty : (breakAt startsBlock s).2 = [] := by
        by_contra hne
        rw [hrest, if_neg hne] at hhead
        cases hhead
      rw [hempty, List.append_nil] at happend
      exact ⟨[], by rw [happend]; rfl⟩
    | cons t starts =>
      have hstart : t = (breakAt startsBlock s).2 := by
        rw [hrest, List.head?_cons] at hhead
        split_ifs at hhead
        exact Option.some.inj hhead
      have hchunk : consumed (blockWith cveId status s) t =
          blockWith cveId status (breakAt startsBlock s).1 := by
        have hcut : blockWith cveId status s =
            blockWith cveId status (breakAt startsBlock s).1 ++ t := by
          rw [hstart]
          conv_lhs => rw [← happend]
          simp [blockWith]
        rw [hcut, consumed_append]
      exact ⟨blockChunks (t :: starts), by rw [blockChunks, hchunk]⟩
  obtain ⟨chunks, hchunks⟩ := hfirst
  rw [parseStandard, hchunks, List.findSome?_cons, parseChunk_blockWith hne hcve hstatus]
  rfl

end Grammar

/-! ### Trimmed texts -/

section Trimmed

variable {s v x tail : Str} {p q : Str → Bool}

theorem getLast?_of_suffix (hs : Str.strip s = s) (hv : v ≠ []) (hsuffix : v <:+ s) :
    ∃ c, v.getLast? = some c ∧ Str.isSpace c = false := by
  obtain ⟨w, rfl⟩ := hsuffix
  have hlast : (w ++ v).getLast? = some (v.getLast hv) := by
    rw [List.getLast?_append_of_ne_nil w hv, List.getLast?_eq_some_getLast hv]
  exact ⟨v.getLast hv, List.getLast?_eq_some_getLast hv,
    (Str.stripWhile_eq_self_iff.mp hs).2 _ hlast⟩

/-- The empty end of a text is not a place to stop. -/
theorem forall_suffix_iff (hnil : p [] = false) :
    (∀ v, v <:+ s → p v = false) ↔ ∀ v, v ≠ [] → v <:+ s → p v = false := by
  refine ⟨fun h v _ hsuffix => h v hsuffix, fun h v hsuffix => ?_⟩
  by_cases hv : v = []
  · rw [hv, hnil]
  · exact h v hv hsuffix

theorem dropWhile_append_of_trimmed (hs : Str.strip s = s) (hne : s ≠ []) (x : Str) :
    (s ++ x).dropWhile Str.isSpace = s ++ x := by
  obtain ⟨c, s, rfl⟩ := List.exists_cons_of_ne_nil hne
  have hc := (Str.stripWhile_eq_self_iff.mp hs).1 c rfl
  rw [List.cons_append, List.dropWhile_cons, hc, if_neg Bool.false_ne_true]

/-- A text without a place to stop is read whole, up to what follows it. -/
theorem breakAt_trimmed (hs : Str.strip s = s) (hne : s ≠ [])
    (hp : ∀ v, v ≠ [] → v <:+ s → p (v ++ tail) = false)
    (hq : ∀ v, v ≠ [] → v <:+ s → q (v ++ (breakAt p tail).1) = false)
    (hstop : (breakAt p tail).1 = [] ∨ q (breakAt p tail).1) :
    breakAt q ((breakAt p (s ++ tail)).1.dropWhile Str.isSpace) = (s, (breakAt p tail).1) := by
  have hrest : breakAt q (breakAt p tail).1 = ([], (breakAt p tail).1) := by
    cases htail : (breakAt p tail).1 with
    | nil => rfl
    | cons c x => exact breakAt_of_stop (htail ▸ hstop.resolve_left (htail ▸ List.cons_ne_nil c x))
  rw [breakAt_append_of_not hp, dropWhile_append_of_trimmed hs hne, breakAt_append_of_not hq,
    hrest, List.append_nil]

/-- A text with a place to stop is not read whole. -/
theorem not_and_of_strip_breakAt (hs : Str.strip s = s) (hne : s ≠ [])
    (h : Str.strip (breakAt q ((breakAt p (s ++ tail)).1.dropWhile Str.isSpace)).1 = s) :
    (∀ v, v ≠ [] → v <:+ s → p (v ++ tail) = false) ∧
      ∀ v, v ≠ [] → v <:+ s → q (v ++ (breakAt p tail).1) = false := by
  have hlength := congrArg List.length h
  have hstrip := (Str.stripWhile_sublist Str.isSpace
    (breakAt q ((breakAt p (s ++ tail)).1.dropWhile Str.isSpace)).1).length_le
  have hp : ∀ v, v ≠ [] → v <:+ s → p (v ++ tail) = false := by
    intro v hv hsuffix
    by_contra hstop
    have hlt := length_breakAt_lt hv hsuffix (Bool.not_eq_false _ |>.mp hstop)
    have hread := @length_breakAt_le _ q ((breakAt p (s ++ tail)).1.dropWhile Str.isSpace)
    have hdrop := ((breakAt p (s ++ tail)).1.dropWhile_sublist Str.isSpace).length_le
    rw [Str.strip] at hlength
    omega
  refine ⟨hp, ?_⟩
  intro v hv hsuffix
  by_contra hstop
  have hlt := length_breakAt_lt hv hsuffix (Bool.not_eq_false _ |>.mp hstop)
  rw [breakAt_append_of_not hp, dropWhile_append_of_trimmed hs hne] at hlength hstrip
  rw [Str.strip] at hlength
  omega

/-- A trimmed text is read back exactly if it has no place to stop. -/
theorem strip_breakAt_eq_iff (hs : Str.strip s = s) (hne : s ≠ [])
    (hstop : (breakAt p tail).1 = [] ∨ q (breakAt p tail).1) :
    Str.strip (breakAt q ((breakAt p (s ++ tail)).1.dropWhile Str.isSpace)).1 = s ↔
      (∀ v, v ≠ [] → v <:+ s → p (v ++ tail) = false) ∧
        ∀ v, v ≠ [] → v <:+ s → q (v ++ (breakAt p tail).1) = false := by
  refine ⟨not_and_of_strip_breakAt hs hne, ?_⟩
  rintro ⟨hp, hq⟩
  rw [breakAt_trimmed hs hne hp hq hstop, hs]

end Trimmed

/-! ### What can be read back -/

section Recovered

variable [Unicode]

/-- The line of the compensating controls. -/
def controlsLine (controls : Str) : Str :=
  if controls = [] then [] else str "\ncompensating-controls: " ++ controls

/-- Nothing in the texts of a decision looks like the end of a text or the start of a block. -/
structure Recoverable (justification controls : Str) : Prop where
  controls_eq_nil : justification = [] → controls = []
  justification_ends : ∀ v, v <:+ justification → endsJustification v = false
  controls_ends : ∀ v, v <:+ controls → endsBlock v = false
  justification_mark : ∀ v, str "[VAT]" ++ v <:+ justification → v = [] ∧ controls = []
  controls_mark : ∀ v, str "[VAT]" ++ v <:+ controls → v = []

variable {cveId status justification controls s v x : Str}

theorem format_eq_blockWith : formatCanonicalBlock ⟨cveId, status, justification, controls⟩ =
    blockWith cveId status (' ' :: (justification ++ controlsLine controls)) := by
  simp [formatCanonicalBlock, blockWith, controlsLine, statusText, str]

omit [Unicode] in
theorem head?_controlsLine (controls : Str) :
    ∀ c ∈ (controlsLine controls).head?, c = '\n' := by
  intro c hc
  rw [controlsLine] at hc
  split_ifs at hc
  · cases hc
  · exact (Option.some.inj hc).symm

/-- Whether a text ends a justification does not depend on the line after it. -/
theorem endsJustification_append (hlast : ∃ c, v.getLast? = some c ∧ Str.isSpace c = false)
    (hx : ∀ c ∈ x.head?, c = '\n') : endsJustification (v ++ x) = endsJustification v := by
  obtain ⟨c, hlast, hc⟩ := hlast
  match v with
  | [] => cases hlast
  | [d] =>
    obtain rfl : d = c := Option.some.inj hlast
    have hne : (d == '\n') = false := by
      refine beq_false_of_ne ?_
      rintro rfl
      exact absurd hc (by decide)
    cases x <;> simp [endsJustification, startsControls, endsBlock, hne]
  | d :: e :: v =>
    have hagrees : agrees Pattern.foldsTo (str "compensating-controls:") (e :: v ++ x) =
        agrees Pattern.foldsTo (str "compensating-controls:") (e :: v) := by
      refine agrees_append fun letter hletter c hc => ?_
      obtain rfl := hx c hc
      rw [Pattern.foldsTo_of_ascii (by decide), decide_eq_false_iff_not]
      rintro rfl
      revert hletter
      decide
    rw [List.cons_append, endsJustification, startsControls, hagrees]
    rfl

omit [Unicode] in
/-- A block starts at a mark with a word behind it. -/
theorem startsBlock_iff :
    startsBlock s ↔ ∃ v, s = str "[VAT]" ++ v ∧ ∃ c ∈ v, Str.isSpace c = false := by
  rw [startsBlock, Option.isSome_iff_ne_none, matchStart_ne_none]
  constructor
  · rintro ⟨m, hm⟩
    obtain ⟨sp, word, -, hne, hword, hs⟩ := mem_run_blockStart hm
    obtain ⟨c, word, rfl⟩ := List.exists_cons_of_ne_nil hne
    exact ⟨_, hs, c, by simp, hword c List.mem_cons_self⟩
  · rintro ⟨v, rfl, c, hc, hblank⟩
    have hne : v.dropWhile Str.isSpace ≠ [] := fun hempty => by
      rw [List.dropWhile_eq_nil_iff.mp hempty c hc] at hblank
      cases hblank
    have hmark : List.Forall₂ (fun c d => (c == d) = true) (str "[VAT]") (str "[VAT]") := by decide
    refine exists_mem_run_all (by rw [run_literal_append hmark]; exact List.mem_singleton_self _) ?_
    refine exists_mem_run_all (List.mem_of_mem_head? (head?_run_many_dropWhile _ _ v)) ?_
    have hhead := List.head_dropWhile_not Str.isSpace hne
    obtain ⟨d, t, hrest⟩ := List.exists_cons_of_ne_nil hne
    simp only [hrest, List.head_cons] at hhead
    exact exists_mem_run_all (mem_run_plus.mpr ⟨rfl, [d], List.cons_ne_nil d [], by simp [hhead],
      hrest⟩) ⟨_, List.mem_singleton_self _⟩

omit [Unicode] in
/-- A mark does not reach into the line after a text. -/
theorem startsBlock_append_iff (hx : ∀ c ∈ x.head?, c = '\n') : startsBlock (v ++ x) ↔
    ∃ w, v = str "[VAT]" ++ w ∧ ∃ c ∈ w ++ x, Str.isSpace c = false := by
  rw [startsBlock_iff]
  constructor
  · rintro ⟨w, hw, c, hc, hblank⟩
    rcases List.append_eq_append_iff.mp hw with ⟨a, hmark, rfl⟩ | ⟨a, rfl, rfl⟩
    · cases a with
      | nil => exact ⟨[], by simpa using hmark.symm, c, hc, hblank⟩
      | cons d a =>
        obtain rfl := hx d rfl
        have hmem : '\n' ∈ str "[VAT]" := by simp [hmark]
        exact absurd hmem (by decide)
    · exact ⟨a, rfl, c, hc, hblank⟩
  · rintro ⟨w, rfl, c, hc, hblank⟩
    exact ⟨w ++ x, List.append_assoc .., c, hc, hblank⟩

omit [Unicode] in
/-- No block starts in a trimmed text if its marks have nothing behind them. -/
theorem mark_iff (hs : Str.strip s = s) (controls : Str) :
    (∀ v, str "[VAT]" ++ v <:+ s → v = [] ∧ controls = []) ↔
      ∀ v, v ≠ [] → v <:+ s → startsBlock (v ++ controlsLine controls) = false := by
  have htail := head?_controlsLine controls
  constructor
  · intro hmark v _ hsuffix
    by_contra hstarts
    obtain ⟨w, rfl, c, hc, -⟩ :=
      (startsBlock_append_iff htail).mp (Bool.not_eq_false _ |>.mp hstarts)
    obtain ⟨rfl, rfl⟩ := hmark w hsuffix
    cases hc
  · intro hstarts v hsuffix
    have hblank : ∀ c ∈ v ++ controlsLine controls, Str.isSpace c := by
      intro c hc
      by_contra hnot
      have hblock := (startsBlock_append_iff (v := str "[VAT]" ++ v) htail).mpr
        ⟨v, rfl, c, hc, Bool.not_eq_true _ |>.mp hnot⟩
      rw [hstarts _ (by simp [str]) hsuffix] at hblock
      cases hblock
    constructor
    · by_contra hv
      obtain ⟨c, hlast, hc⟩ := getLast?_of_suffix hs hv ((List.suffix_append _ v).trans hsuffix)
      rw [hblank c (List.mem_append_left _ (List.mem_of_getLast? hlast))] at hc
      cases hc
    · by_contra hne
      have hmem : 'c' ∈ v ++ controlsLine controls := by
        rw [controlsLine, if_neg hne]
        simp [str]
      exact absurd (hblank 'c' hmem) (by decide)

theorem endsJustification_iff (hs : Str.strip s = s) (hx : ∀ c ∈ x.head?, c = '\n') :
    (∀ v, v <:+ s → endsJustification v = false) ↔
      ∀ v, v ≠ [] → v <:+ s → endsJustification (v ++ x) = false := by
  rw [forall_suffix_iff rfl]
  refine forall_congr' fun v => imp_congr_right fun hv => ?_
  refine forall_congr' fun hsuffix => ?_
  rw [endsJustification_append (getLast?_of_suffix hs hv hsuffix) hx]

omit [Unicode] in
/-- No block starts in the header of the controls. -/
theorem breakAt_controlsLine (hne : controls ≠ []) :
    (breakAt startsBlock (controlsLine controls)).1 =
      str "\ncompensating-controls: " ++ (breakAt startsBlock controls).1 := by
  rw [controlsLine, if_neg hne, breakAt_append_of_not]
  intro v hv hsuffix
  obtain ⟨c, v, rfl⟩ := List.exists_cons_of_ne_nil hv
  have hc : c ≠ '[' := by
    rintro rfl
    exact absurd (hsuffix.subset List.mem_cons_self) (by decide)
  rw [List.cons_append, startsBlock, matchStart_blockStart_cons _ hc]
  rfl

/-- The controls are read back exactly if nothing in them looks like an end. -/
theorem controls_iff (hk : Str.strip controls = controls) (hne : controls ≠ []) :
    Str.strip (breakAt endsBlock ((breakAt startsBlock controls).1.dropWhile Str.isSpace)).1 =
        controls ↔
      (∀ v, v <:+ controls → endsBlock v = false) ∧
        ∀ v, str "[VAT]" ++ v <:+ controls → v = [] := by
  have hread : Str.strip (breakAt endsBlock ((breakAt startsBlock (controls ++ [])).1.dropWhile
      Str.isSpace)).1 = controls ↔ _ := strip_breakAt_eq_iff hk hne (.inl rfl)
  have hmark := mark_iff hk []
  have hline : controlsLine [] = [] := rfl
  have hempty : (breakAt startsBlock []).1 = [] := rfl
  simp only [hline, hempty, List.append_nil, and_true] at hread hmark
  rw [hread, hmark, and_comm, forall_suffix_iff rfl]

theorem startsControls_line (s : Str) :
    startsControls (str "\ncompensating-controls: " ++ s) = true :=
  agrees_iff_exists.mpr ⟨str "compensating-controls:", ' ' :: s,
    forall₂_foldsTo (by decide) (by decide), rfl⟩

omit [Unicode] in
/-- The blank in front of a justification is not part of it. -/
theorem dropWhile_breakAt_blank (s : Str) :
    (breakAt startsBlock (' ' :: s)).1.dropWhile Str.isSpace =
      (breakAt startsBlock s).1.dropWhile Str.isSpace := by
  have hstart : startsBlock (' ' :: s) = false := by
    rw [startsBlock, matchStart_blockStart_cons _ (by decide)]
    rfl
  rw [breakAt_of_not_stop hstart]
  rfl

/-- Controls without a justification are read as one. -/
theorem readTexts_of_controls (hne : controls ≠ []) :
    (readTexts (' ' :: controlsLine controls)).1 ≠ [] := by
  intro hempty
  rw [readTexts, dropWhile_breakAt_blank, breakAt_controlsLine hne] at hempty
  have hread : (breakAt endsJustification ((str "\ncompensating-controls: " ++
      (breakAt startsBlock controls).1).dropWhile Str.isSpace)).1 =
        'c' :: (breakAt endsJustification (str "ompensating-controls: " ++
          (breakAt startsBlock controls).1)).1 := rfl
  obtain ⟨pre, post, hsplit, -, hpre, hpost⟩ := exists_strip ('c' :: (breakAt endsJustification
    (str "ompensating-controls: " ++ (breakAt startsBlock controls).1)).1)
  rw [hread] at hempty
  simp only at hempty
  rw [hempty, List.append_nil] at hsplit
  have hmem : 'c' ∈ pre ++ post := hsplit ▸ List.mem_cons_self
  exact absurd ((List.mem_append.mp hmem).elim (hpre 'c') (hpost 'c')) (by decide)

/-- What is read of the line after a justification are the controls, exactly if nothing in them
looks like an end. -/
theorem controlsLine_iff (hk : Str.strip controls = controls) :
    (if startsControls (breakAt startsBlock (controlsLine controls)).1 then
      Str.strip (breakAt endsBlock (((breakAt startsBlock (controlsLine controls)).1.drop
        23).dropWhile Str.isSpace)).1
    else []) = controls ↔
      (∀ v, v <:+ controls → endsBlock v = false) ∧
        ∀ v, str "[VAT]" ++ v <:+ controls → v = [] := by
  by_cases hne : controls = []
  · subst hne
    refine iff_of_true rfl ⟨fun v hv => ?_, fun v hv => ?_⟩
    · rw [List.suffix_nil.mp hv]
      rfl
    · cases List.suffix_nil.mp hv
  · rw [← controls_iff hk hne, breakAt_controlsLine hne, if_pos (startsControls_line _)]
    rfl

/-- The texts of a decision are read back exactly if they can be recovered. -/
theorem readTexts_eq_iff (hj : Str.strip justification = justification)
    (hk : Str.strip controls = controls) :
    readTexts (' ' :: (justification ++ controlsLine controls)) = (justification, controls) ↔
      Recoverable justification controls := by
  have hsecond := controlsLine_iff hk
  by_cases hne : justification = []
  · subst hne
    by_cases hcontrols : controls = []
    · subst hcontrols
      obtain ⟨hends, hmark⟩ := hsecond.mp rfl
      refine iff_of_true rfl ⟨fun _ => rfl, fun v hv => ?_, hends, fun v hv => ⟨hmark v hv, rfl⟩,
        hmark⟩
      rw [List.suffix_nil.mp hv]
      rfl
    · exact iff_of_false (fun h => readTexts_of_controls hcontrols (congrArg Prod.fst h))
        fun h => hcontrols (h.controls_eq_nil rfl)
  -- the line after the justification ends it, as far as it belongs to the block
  set x := (breakAt startsBlock (controlsLine controls)).1 with hx
  have hline : ∀ c ∈ x.head?, c = '\n' := by
    by_cases hcontrols : controls = []
    · rw [hx, hcontrols]
      exact fun c hc => nomatch hc
    · rw [hx, breakAt_controlsLine hcontrols]
      exact fun c hc => (Option.some.inj hc).symm
  have hstop : x = [] ∨ endsJustification x := by
    by_cases hcontrols : controls = []
    · exact .inl (by rw [hx, hcontrols]; rfl)
    · rw [hx, breakAt_controlsLine hcontrols, endsJustification, startsControls_line]
      exact .inr rfl
  have hfirst := strip_breakAt_eq_iff hj hne hstop
  rw [← mark_iff hj, ← endsJustification_iff hj hline] at hfirst
  have htexts : (∀ v, str "[VAT]" ++ v <:+ justification → v = [] ∧ controls = []) ∧
      (∀ v, v <:+ justification → endsJustification v = false) → breakAt endsJustification
        ((breakAt startsBlock (justification ++ controlsLine controls)).1.dropWhile Str.isSpace) =
          (justification, x) := fun h =>
    breakAt_trimmed hj hne ((mark_iff hj controls).mp h.1)
      ((endsJustification_iff hj hline).mp h.2) hstop
  rw [readTexts, dropWhile_breakAt_blank, Prod.mk.injEq]
  constructor
  · rintro ⟨h₁, h₂⟩
    have hread := hfirst.mp h₁
    simp only [htexts hread] at h₂
    obtain ⟨hends, hmark⟩ := hsecond.mp h₂
    exact ⟨fun h => absurd h hne, hread.2, hends, hread.1, hmark⟩
  · intro h
    have hread := And.intro h.justification_mark h.justification_ends
    refine ⟨hfirst.mpr hread, ?_⟩
    simp only [htexts hread]
    exact hsecond.mpr ⟨h.controls_ends, h.controls_mark⟩

/-- A canonical block is read back exactly if its texts can be recovered. -/
theorem canonical_round_trip_iff [UpperCase] [CharTables] [TextMatching] (hint : Option Str)
    (hne : cveId ≠ []) (hcve : ∀ c ∈ cveId, Str.isSpace c = false)
    (hstatus : status ∈ statusCanonical) (hj : Str.strip justification = justification)
    (hk : Str.strip controls = controls) :
    parseVatBlock (formatCanonicalBlock ⟨cveId, status, justification, controls⟩) hint =
        some ⟨cveId, status, justification, controls⟩ ↔
      Recoverable justification controls := by
  have hparse : parseVatBlock (blockWith cveId status
      (' ' :: (justification ++ controlsLine controls))) hint =
        some ⟨cveId, status, (readTexts (' ' :: (justification ++ controlsLine controls))).1,
          (readTexts (' ' :: (justification ++ controlsLine controls))).2⟩ := by
    rw [parseVatBlock, if_neg (by simp [blockWith, str]),
      parseStandard_blockWith hne hcve hstatus, Option.some_or]
  rw [format_eq_blockWith, hparse, ← readTexts_eq_iff hj hk, Option.some_inj, VatBlock.mk.injEq,
    Prod.ext_iff]
  exact ⟨fun h => h.2.2, fun h => ⟨rfl, rfl, h⟩⟩

/-- What can be recovered is decided on the ends of the texts. -/
theorem recoverable_iff :
    Recoverable justification controls ↔
      (justification = [] → controls = []) ∧
      (∀ v ∈ justification.tails, endsJustification v = false) ∧
      (∀ v ∈ controls.tails, endsBlock v = false) ∧
      (∀ v ∈ justification.tails, str "[VAT]" <+: v → v = str "[VAT]" ∧ controls = []) ∧
      ∀ v ∈ controls.tails, str "[VAT]" <+: v → v = str "[VAT]" := by
  simp only [List.mem_tails]
  constructor
  · intro h
    refine ⟨h.controls_eq_nil, h.justification_ends, h.controls_ends, ?_, ?_⟩
    · rintro _ hsuffix ⟨v, rfl⟩
      obtain ⟨rfl, hcontrols⟩ := h.justification_mark v hsuffix
      exact ⟨List.append_nil _, hcontrols⟩
    · rintro _ hsuffix ⟨v, rfl⟩
      rw [h.controls_mark v hsuffix, List.append_nil]
  · rintro ⟨hnil, hjustification, hcontrols, hmark, hmark'⟩
    refine ⟨hnil, hjustification, hcontrols, fun v hsuffix => ?_, fun v hsuffix => ?_⟩
    · obtain ⟨hv, hempty⟩ := hmark _ hsuffix (List.prefix_append _ v)
      exact ⟨List.append_right_eq_self.mp hv, hempty⟩
    · exact List.append_right_eq_self.mp (hmark' _ hsuffix (List.prefix_append _ v))

instance (justification controls : Str) : Decidable (Recoverable justification controls) :=
  decidable_of_iff _ recoverable_iff.symm

end Recovered

section Examples

attribute [local instance] asciiUnicode asciiUpperCase asciiCharTables noTextMatching

/-- A decision with texts of several lines. -/
def acceptedRisk : VatBlock :=
  ⟨str "CVE-2024-1234", str "Risk Accepted", str "The port is closed.\n  See the [plan].",
    str "WAF rule 7\nAlerts"⟩

theorem noBlank_acceptedRisk : ∀ c ∈ acceptedRisk.cveId, Str.isSpace c = false := by
  have hall : (acceptedRisk.cveId.all fun c => !Str.isSpace c) = true := by decide
  simpa using List.all_eq_true.mp hall

/-- The decision is read back. -/
theorem canonical_round_trip_acceptedRisk :
    parseVatBlock (formatCanonicalBlock acceptedRisk) none = some acceptedRisk :=
  (canonical_round_trip_iff none (by decide) noBlank_acceptedRisk (by decide) (by decide)
    (by decide)).mpr (by decide +kernel)

/-- A decision whose justification has a blank line. -/
def paragraphs : VatBlock :=
  ⟨str "CVE-2024-1234", str "Risk Accepted", str "The port is closed.\n\nSee the plan.", []⟩

/-- Of a justification with a blank line, only what stands before it is read back. -/
theorem canonical_paragraphs_cut :
    parseVatBlock (formatCanonicalBlock paragraphs) none =
        some { paragraphs with justification := str "The port is closed." } ∧
      parseVatBlock (formatCanonicalBlock paragraphs) none ≠ some paragraphs := by
  decide +kernel

end Examples

end Vat
