/-
  EliteTelemetry.Probes.AdditionalLabels — labels made from a pod's labels
  (`appendAdditionalLabelsValues` of `probe/legacy.go`, `SanitizeLabelValue` of
  `security/labels.go`).

  An expression is a text with references to labels of the pod. `replaceAllStringSubmatchFunc`
  walks over the matches of a regular expression, and comes to the text with every reference
  replaced and all else as it was (`replaceAll_render`).

  The value is cleaned of control characters by characters, and then cut by bytes. What comes
  out is never too long and never has a control character. It is a text again, which a metric
  has to have, exactly if the cut does not go through a character (`additionalLabels_sound_iff`).
-/

import EliteTelemetry.Lib.Utf8

namespace EliteTelemetry.Probes.AdditionalLabels

open EliteTelemetry.Lib.Utf8

/-! ## Expressions -/

def refStart : List Char := '$' :: "\x7blabels:".toList

/-- The group `(.*?)` with the brace behind it: up to the first brace, on one line. -/
def groupAt : List Char → Option (List Char)
  | [] => none
  | c :: cs => if c = '\x7d' then some [] else if c = '\n' then none else (groupAt cs).map (c :: ·)

def matchAt (cs : List Char) : Option (List Char) :=
  if refStart.isPrefixOf cs then groupAt (cs.drop refStart.length) else none

structure Match where
  start : Nat
  stop : Nat
  name : List Char
  deriving DecidableEq, Repr

/-- `FindAllSubmatchIndex`, from a position on: the next match begins where the last one
    ended, which is after so many characters. -/
def findAllSubmatch : Nat → Nat → List Char → List Match
  | _, _, [] => []
  | pos, skip + 1, _ :: cs => findAllSubmatch (pos + 1) skip cs
  | pos, 0, c :: cs =>
    match matchAt (c :: cs) with
    | some name =>
      ⟨pos, pos + (refStart.length + name.length + 1), name⟩ ::
        findAllSubmatch (pos + 1) (refStart.length + name.length) cs
    | none => findAllSubmatch (pos + 1) 0 cs

def replaceStep (str : List Char) (repl : List Char → List Char) (acc : List Char × Nat) (m : Match) :
    List Char × Nat :=
  (acc.1 ++ str.extract acc.2 m.start ++ repl m.name, m.stop)

def replaceAllStringSubmatchFunc (str : List Char) (repl : List Char → List Char) : List Char :=
  let acc := (findAllSubmatch 0 0 str).foldl (replaceStep str repl) ([], 0)
  acc.1 ++ str.drop acc.2

def podLabelValue (podLabels : List (String × String)) (name : List Char) : List Char :=
  match podLabels.lookup (String.ofList name) with
  | some value => value.toList
  | none => []

/-- The value of an expression, before it is sanitized. -/
def expand (podLabels : List (String × String)) (expr : String) : List Char :=
  replaceAllStringSubmatchFunc expr.toList (podLabelValue podLabels)

/-! ## Values -/

def maxLabelValueLen : Nat := 256

def dropControl (r : Char) : Option Char := if r.toNat < 0x20 ∨ r.toNat = 0x7f then none else some r

def sanitizeLabelValue (v : List UInt8) : List UInt8 :=
  let v := mapRunes dropControl v
  if maxLabelValueLen < v.length then v.take maxLabelValueLen else v

def appendAdditionalLabelsValues (exprs : List String) (values : List (List UInt8))
    (podLabels : List (String × String)) : List (List UInt8) :=
  if exprs.length = 0 then values
  else exprs.foldl (fun values expr => values ++ [sanitizeLabelValue (encode (expand podLabels expr))]) values

theorem appendAdditionalLabelsValues_eq (exprs : List String) (values : List (List UInt8))
    (podLabels : List (String × String)) :
    appendAdditionalLabelsValues exprs values podLabels =
      values ++ exprs.map fun expr => sanitizeLabelValue (encode (expand podLabels expr)) := by
  have hfold : ∀ values, exprs.foldl
      (fun values expr => values ++ [sanitizeLabelValue (encode (expand podLabels expr))]) values =
        values ++ exprs.map fun expr => sanitizeLabelValue (encode (expand podLabels expr)) := by
    induction exprs with
    | nil => simp
    | cons expr exprs ih => simp [ih]
  unfold appendAdditionalLabelsValues
  split
  · next hnil => simp [List.eq_nil_of_length_eq_zero hnil]
  · exact hfold values

/-! ## What an expression comes to -/

def substitute (repl : List Char → List Char) : Nat → List Char → List Char
  | _, [] => []
  | skip + 1, _ :: cs => substitute repl skip cs
  | 0, c :: cs =>
    match matchAt (c :: cs) with
    | some name => repl name ++ substitute repl (refStart.length + name.length) cs
    | none => c :: substitute repl 0 cs

variable {c : Char} {cs : List Char}

theorem extract_add_one {str : List Char} {last pos : Nat} (hdrop : str.drop pos = c :: cs) (hlast : last ≤ pos) :
    str.extract last (pos + 1) = str.extract last pos ++ [c] := by
  have hget : (str.drop last)[pos - last]? = some c := by
    rw [List.getElem?_drop, Nat.add_sub_cancel' hlast, ← List.head?_drop, hdrop, List.head?_cons]
  rw [List.extract_eq_take_drop, List.extract_eq_take_drop, Nat.sub_add_comm hlast, List.take_add_one, hget]
  rfl

theorem drop_add_one {str : List Char} {pos : Nat} (hdrop : str.drop pos = c :: cs) : str.drop (pos + 1) = cs := by
  rw [← List.drop_drop, hdrop, List.drop_one, List.tail_cons]

/-- The loop over the matches from a position on: what lies between the last match and that
    position is still to be copied. -/
theorem replaceStep_foldl (str : List Char) (repl : List Char → List Char) (cs : List Char) :
    ∀ pos skip result last, str.drop pos = cs → last ≤ pos + skip →
      let acc := (findAllSubmatch pos skip cs).foldl (replaceStep str repl) (result, last)
      acc.1 ++ str.drop acc.2 = result ++ str.extract last (pos + skip) ++ substitute repl skip cs := by
  induction cs with
  | nil =>
    intro pos skip result last hdrop hlast
    have hlen : str.length ≤ pos := List.drop_eq_nil_iff.mp hdrop
    have hrest : str.extract last (pos + skip) = str.drop last := by
      rw [List.extract_eq_take_drop, List.take_of_length_le]
      rw [List.length_drop]
      omega
    simp only [findAllSubmatch, List.foldl_nil, substitute, List.append_nil, hrest]
  | cons c cs ih =>
    intro pos skip result last hdrop hlast
    have hnext := drop_add_one hdrop
    cases skip with
    | succ skip =>
      have hpos : pos + 1 + skip = pos + (skip + 1) := by omega
      simpa only [findAllSubmatch, substitute, hpos] using ih (pos + 1) skip result last hnext (by omega)
    | zero =>
      cases hmatch : matchAt (c :: cs) with
      | none =>
        have hstep := ih (pos + 1) 0 result last hnext (by omega)
        simp only [Nat.add_zero, extract_add_one hdrop hlast] at hstep
        simpa only [findAllSubmatch, substitute, hmatch, Nat.add_zero, List.append_assoc, List.singleton_append]
          using hstep
      | some name =>
        -- the match ends where the skipping ends, so that nothing is left to copy
        have hstop : pos + 1 + (refStart.length + name.length) = pos + (refStart.length + name.length + 1) := by omega
        have hstep := ih (pos + 1) (refStart.length + name.length) (result ++ str.extract last pos ++ repl name)
          (pos + (refStart.length + name.length + 1)) hnext (by omega)
        simp only [hstop, List.extract_eq_take_drop, Nat.sub_self, List.take_zero, List.append_nil] at hstep
        simpa only [findAllSubmatch, substitute, hmatch, List.foldl_cons, replaceStep, Nat.add_zero,
          List.extract_eq_take_drop, List.append_assoc] using hstep

theorem replaceAll_eq_substitute (str : List Char) (repl : List Char → List Char) :
    replaceAllStringSubmatchFunc str repl = substitute repl 0 str := by
  have h := replaceStep_foldl str repl str 0 0 [] 0 rfl (Nat.le_refl 0)
  simpa [replaceAllStringSubmatchFunc] using h

inductive Part where
  | text (cs : List Char) (plain : '$' ∉ cs)
  | ref (name : List Char) (open_ : '\x7d' ∉ name) (oneLine : '\n' ∉ name)

def Part.render : Part → List Char
  | .text cs _ => cs
  | .ref name _ _ => refStart ++ (name ++ ['\x7d'])

def Part.value (repl : List Char → List Char) : Part → List Char
  | .text cs _ => cs
  | .ref name _ _ => repl name

theorem groupAt_append {name : List Char} (hopen : '\x7d' ∉ name) (hline : '\n' ∉ name) (rest : List Char) :
    groupAt (name ++ '\x7d' :: rest) = some name := by
  induction name with
  | nil => simp [groupAt]
  | cons c name ih =>
    obtain ⟨hc, hopen⟩ := not_or.mp (List.mem_cons.not.mp hopen)
    obtain ⟨hc', hline⟩ := not_or.mp (List.mem_cons.not.mp hline)
    rw [List.cons_append, groupAt, if_neg (Ne.symm hc), if_neg (Ne.symm hc'), ih hopen hline]
    rfl

theorem matchAt_ref {name : List Char} (hopen : '\x7d' ∉ name) (hline : '\n' ∉ name) (rest : List Char) :
    matchAt (refStart ++ (name ++ '\x7d' :: rest)) = some name := by
  rw [matchAt, if_pos (List.isPrefixOf_iff_prefix.mpr (List.prefix_append _ _)), List.drop_left,
    groupAt_append hopen hline]

theorem matchAt_of_ne (hc : c ≠ '$') (cs : List Char) : matchAt (c :: cs) = none := by
  refine if_neg fun h => hc ?_
  exact (List.cons_prefix_cons.mp (List.isPrefixOf_iff_prefix.mp h)).1.symm

theorem substitute_skip (repl : List Char → List Char) (skipped rest : List Char) :
    substitute repl skipped.length (skipped ++ rest) = substitute repl 0 rest := by
  induction skipped with
  | nil => rfl
  | cons c skipped ih => exact ih

theorem substitute_part (repl : List Char → List Char) (part : Part) (rest : List Char) :
    substitute repl 0 (part.render ++ rest) = part.value repl ++ substitute repl 0 rest := by
  cases part with
  | text cs plain =>
    show substitute repl 0 (cs ++ rest) = cs ++ substitute repl 0 rest
    induction cs with
    | nil => rfl
    | cons c cs ih =>
      obtain ⟨hc, hplain⟩ := not_or.mp (List.mem_cons.not.mp plain)
      rw [List.cons_append, substitute, matchAt_of_ne (Ne.symm hc)]
      simp only [ih hplain, List.cons_append]
  | ref name hopen hline =>
    have hmatch := matchAt_ref hopen hline rest
    obtain ⟨c, start, hstart⟩ : ∃ c start, refStart = c :: start := ⟨_, _, rfl⟩
    -- all of the reference but its first character is skipped
    have hskip : refStart.length + name.length = (start ++ (name ++ ['\x7d'])).length := by
      simp only [hstart, List.length_cons, List.length_append, List.length_nil]
      omega
    have htext : (Part.ref name hopen hline).render ++ rest = c :: ((start ++ (name ++ ['\x7d'])) ++ rest) := by
      rw [Part.render, hstart, List.cons_append, List.cons_append]
    have hmatch' : matchAt (c :: ((start ++ (name ++ ['\x7d'])) ++ rest)) = some name := by
      rw [← htext, Part.render, List.append_assoc, List.append_assoc]
      exact hmatch
    rw [htext, substitute, hmatch']
    simp only [hskip, substitute_skip, Part.value]

theorem replaceAll_render (repl : List Char → List Char) (parts : List Part) :
    replaceAllStringSubmatchFunc (parts.flatMap Part.render) repl = parts.flatMap (Part.value repl) := by
  rw [replaceAll_eq_substitute]
  induction parts with
  | nil => rfl
  | cons part parts ih => rw [List.flatMap_cons, List.flatMap_cons, substitute_part, ih]

/-! ## What a value is -/

def NoControl (v : List UInt8) : Prop := ∀ b ∈ v, ¬(b.toNat < 0x20 ∨ b.toNat = 0x7f)

/-- A value a metric can have: text of no more than 256 bytes without a control character,
    which is sanitized already. -/
structure Sound (v : List UInt8) : Prop where
  valid : Valid v
  len : v.length ≤ maxLabelValueLen
  noControl : NoControl v
  unchanged : sanitizeLabelValue v = v

def clean (cs : List Char) : List Char := cs.filterMap dropControl

/-- The text ends before the cut, or a character does at it. -/
def CutBetween (cs : List Char) : Prop := (encode cs).length ≤ maxLabelValueLen ∨ Boundary cs maxLabelValueLen

theorem sanitizeLabelValue_eq (v : List UInt8) :
    sanitizeLabelValue v = (mapRunes dropControl v).take maxLabelValueLen := by
  simp only [sanitizeLabelValue]
  split
  · rfl
  · next h => rw [List.take_of_length_le (Nat.not_lt.mp h)]

theorem sanitizeLabelValue_encode (cs : List Char) :
    sanitizeLabelValue (encode cs) = (encode (clean cs)).take maxLabelValueLen := by
  rw [sanitizeLabelValue_eq, mapRunes_encode, clean]

theorem dropControl_eq_some_iff {r : Char} : dropControl r = some c ↔ r = c ∧ ¬(c.toNat < 0x20 ∨ c.toNat = 0x7f) := by
  unfold dropControl
  constructor
  · intro h
    split at h
    · exact absurd h (by simp)
    · next hr =>
      obtain rfl := Option.some.inj h
      exact ⟨rfl, hr⟩
  · intro h
    obtain ⟨rfl, hr⟩ := h
    rw [if_neg hr]

theorem not_control_of_mem_filterMap (h : c ∈ cs.filterMap dropControl) : ¬(c.toNat < 0x20 ∨ c.toNat = 0x7f) := by
  obtain ⟨r, -, hr⟩ := List.mem_filterMap.mp h
  exact (dropControl_eq_some_iff.mp hr).2

theorem clean_eq_self (h : ∀ c ∈ cs, ¬(c.toNat < 0x20 ∨ c.toNat = 0x7f)) : clean cs = cs := by
  induction cs with
  | nil => rfl
  | cons c cs ih =>
    obtain ⟨hc, hcs⟩ := List.forall_mem_cons.mp h
    rw [clean, List.filterMap_cons_some (dropControl_eq_some_iff.mpr ⟨rfl, hc⟩), ← clean, ih hcs]

theorem sanitizeLabelValue_length (v : List UInt8) : (sanitizeLabelValue v).length ≤ maxLabelValueLen := by
  rw [sanitizeLabelValue_eq, List.length_take]
  exact Nat.min_le_left _ _

theorem sanitizeLabelValue_noControl (v : List UInt8) : NoControl (sanitizeLabelValue v) := by
  intro b hb hcontrol
  rw [sanitizeLabelValue_eq] at hb
  obtain ⟨c, hc, hcb⟩ := exists_toNat_of_mem_encode (List.mem_of_mem_take hb) (by omega)
  refine not_control_of_mem_filterMap hc ?_
  rwa [hcb]

/-- The beginning of a clean text is clean, and stays as it is if it is not too long. -/
theorem sanitizeLabelValue_of_prefix {ds : List Char} (hds : ds <+: clean cs)
    (hlen : (encode ds).length ≤ maxLabelValueLen) : sanitizeLabelValue (encode ds) = encode ds := by
  have hclean : clean ds = ds := clean_eq_self fun c hc => not_control_of_mem_filterMap (hds.subset hc)
  rw [sanitizeLabelValue_encode, hclean, List.take_of_length_le hlen]

theorem sound_iff (cs : List Char) : Sound (sanitizeLabelValue (encode cs)) ↔ CutBetween (clean cs) := by
  constructor
  · intro h
    rcases Nat.le_total (encode (clean cs)).length maxLabelValueLen with hle | hge
    · exact Or.inl hle
    · have hvalid := h.valid
      rw [sanitizeLabelValue_encode] at hvalid
      exact Or.inr ((valid_take_iff hge).mp hvalid)
  · intro h
    obtain ⟨ds, hds, hvalue⟩ : ∃ ds, ds <+: clean cs ∧ sanitizeLabelValue (encode cs) = encode ds := by
      rw [sanitizeLabelValue_encode]
      rcases h with hle | hboundary
      · exact ⟨clean cs, List.prefix_rfl, List.take_of_length_le hle⟩
      · exact take_of_boundary hboundary
    have hlen := sanitizeLabelValue_length (encode cs)
    refine ⟨⟨ds, hvalue⟩, hlen, sanitizeLabelValue_noControl _, ?_⟩
    rw [hvalue] at hlen ⊢
    exact sanitizeLabelValue_of_prefix hds hlen

/-- Of any expressions and any labels, the values are short enough and without control
    characters. They are values a metric can have exactly if no character is cut in two. -/
theorem additionalLabels_sound_iff (exprs : List String) (podLabels : List (String × String)) :
    (∀ v ∈ appendAdditionalLabelsValues exprs [] podLabels, v.length ≤ maxLabelValueLen ∧ NoControl v) ∧
      ((∀ v ∈ appendAdditionalLabelsValues exprs [] podLabels, Sound v) ↔
        ∀ expr ∈ exprs, CutBetween (clean (expand podLabels expr))) := by
  rw [appendAdditionalLabelsValues_eq, List.nil_append]
  constructor
  · intro v hv
    obtain ⟨expr, -, rfl⟩ := List.mem_map.mp hv
    exact ⟨sanitizeLabelValue_length _, sanitizeLabelValue_noControl _⟩
  · rw [List.forall_mem_map]
    exact forall₂_congr fun expr _ => sound_iff _

def accented (n : Nat) : List Char := List.replicate n 'a' ++ ['é']

theorem encode_replicate (n : Nat) : encode (List.replicate n 'a') = List.replicate n 0x61 := by
  induction n with
  | zero => rfl
  | succ n ih =>
    rw [List.replicate_succ, List.replicate_succ, encode_cons, ih]
    rfl

theorem encode_accented (n : Nat) : encode (accented n) = List.replicate n 0x61 ++ [0xc3, 0xa9] := by
  rw [accented, encode_append, encode_replicate]
  rfl

theorem clean_accented (n : Nat) : clean (accented n) = accented n := by
  refine clean_eq_self fun c hc => ?_
  rcases List.mem_append.mp hc with h | h
  · rw [List.eq_of_mem_replicate h]
    decide
  · rw [List.mem_singleton.mp h]
    decide

theorem length_encode_accented (n : Nat) : (encode (accented n)).length = n + 2 := by
  simp [encode_accented]

theorem take_encode_accented (n : Nat) : (encode (accented n)).take (n + 1) = List.replicate n 0x61 ++ [0xc3] := by
  rw [encode_accented, List.take_append]
  simp

theorem not_boundary_accented (n : Nat) : ¬Boundary (accented n) (n + 1) := by
  intro h
  obtain ⟨ds, hds, hlen⟩ := h
  rcases List.prefix_concat_iff.mp hds with rfl | hletters
  · have hwhole := length_encode_accented n
    rw [accented, hlen] at hwhole
    omega
  · have hle := (encode_isPrefix_iff.mpr hletters).length_le
    rw [encode_replicate, List.length_replicate] at hle
    omega

theorem expand_text (podLabels : List (String × String)) (plain : '$' ∉ cs) :
    expand podLabels (String.ofList cs) = cs := by
  have hparts : cs = [Part.text cs plain].flatMap Part.render := by simp [Part.render]
  rw [expand, String.toList_ofList, hparts, replaceAll_render]
  simp [Part.value, Part.render]

/-- The text of an expression has 255 letters and one of two bytes, which is cut in two. -/
theorem additionalLabels_cut_in_two :
    appendAdditionalLabelsValues [String.ofList (accented 255)] [] [("app", "web")] =
        [List.replicate 255 0x61 ++ [0xc3]] ∧
      ¬Valid (List.replicate 255 0x61 ++ [0xc3]) := by
  have hvalue : (encode (accented 255)).take maxLabelValueLen = List.replicate 255 0x61 ++ [0xc3] :=
    take_encode_accented 255
  have hplain : '$' ∉ accented 255 := by
    intro hmem
    rcases List.mem_append.mp hmem with h | h
    · exact absurd (List.eq_of_mem_replicate h) (by decide)
    · exact absurd (List.mem_singleton.mp h) (by decide)
  constructor
  · rw [appendAdditionalLabelsValues_eq, List.map_singleton, expand_text _ hplain, sanitizeLabelValue_encode,
      clean_accented, hvalue, List.nil_append]
  · rw [← hvalue, valid_take_iff (by rw [length_encode_accented]; decide)]
    exact not_boundary_accented 255

end EliteTelemetry.Probes.AdditionalLabels
