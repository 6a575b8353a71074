import ByteMachine.Proofs.Respelling

/-!
# Reformatting a source text

A source text may be laid out in many ways. Lines with nothing on them may come and go, comments may
be added, operands may be set apart by other separators, and mnemonics, registers, conditions and
the word `define` may be written in capital or in small letters. None of this makes a difference to
what the text is assembled into, or to the lines on which it is rejected.
-/
namespace ByteMachine

open Text

/-- What stands on a line before the first token of an instruction or a definition: blanks, or a
label. Without a label the token must not be one. -/
inductive LeadsTo (head : Text) : Text → Prop
  | alone {gap : Text} (hgap : ∀ c ∈ gap, isBlank c = true) (hlabel : ∀ name, head ≠ '.' :: name) :
      LeadsTo head gap
  | labelled {gap name gap' : Text} (hgap : ∀ c ∈ gap, isBlank c = true)
      (hname : ∀ c ∈ name, isBlank c = false) (hne : gap' ≠ [])
      (hgap' : ∀ c ∈ gap', isBlank c = true) : LeadsTo head (gap ++ '.' :: name ++ gap')

/-- The text reaches into the operands of an instruction or a definition: it goes on with a blank
after the first token. -/
def ReachesOperands (front : Text) : Prop :=
  ∃ lead head, ∃ rest : Text, front = lead ++ head ++ rest ∧ LeadsTo head lead ∧ head ≠ [] ∧
    (∀ c ∈ head, isBlank c = false) ∧ rest ≠ [] ∧ Opens isBlank rest

/-- An edit of one line. In the last three the edit is made before the comment of the line. -/
inductive LineEdit : Text → Text → Prop
  | comment (line : Text) {gap comment : Text} (hgap : ∀ c ∈ gap, isBlank c = true)
      (hcomment : ∃ rest, comment = ';' :: rest ∨ comment = '#' :: rest) :
      LineEdit line (line ++ gap ++ comment)
  | separators {front gap gap' back comment : Text} (hfront : ReachesOperands front)
      (hne : gap ≠ []) (hgap : ∀ c ∈ gap, isOperandSeparator c = true)
      (hne' : gap' ≠ []) (hgap' : ∀ c ∈ gap', isOperandSeparator c = true)
      (hcode : stripComment (front ++ gap ++ back ++ comment) = front ++ gap ++ back) :
      LineEdit (front ++ gap ++ back ++ comment) (front ++ gap' ++ back ++ comment)
  | headCase {lead head head' back comment : Text} (hlead : LeadsTo head lead)
      (hhead : ∀ c ∈ head, isBlank c = false) (hreserved : head.isReserved = true)
      (hcase : head.fold = head'.fold) (hback : Opens isBlank back)
      (hcode : stripComment (lead ++ head ++ back ++ comment) = lead ++ head ++ back) :
      LineEdit (lead ++ head ++ back ++ comment) (lead ++ head' ++ back ++ comment)
  | operandCase {front token token' back comment : Text} (hfront : ReachesOperands front)
      (hlast : ∀ c ∈ front.getLast?, isOperandSeparator c = true)
      (htoken : ∀ c ∈ token, isOperandSeparator c = false) (hreserved : token.isReserved = true)
      (hcase : token.fold = token'.fold) (hback : Opens isOperandSeparator back)
      (hcode : stripComment (front ++ token ++ back ++ comment) = front ++ token ++ back) :
      LineEdit (front ++ token ++ back ++ comment) (front ++ token' ++ back ++ comment)

inductive Reformatted (source source' : Text) : (Nat → Nat) → Prop
  | insert (before after : List Text) (line : Text) (hline : (stripComment line).trim = [])
      (hsource : source.lines = before ++ after)
      (hsource' : source'.lines = before ++ line :: after) :
      Reformatted source source' fun n => if n < before.length then n else n + 1
  | delete (before after : List Text) (line : Text) (hline : (stripComment line).trim = [])
      (hsource : source.lines = before ++ line :: after)
      (hsource' : source'.lines = before ++ after) :
      Reformatted source source' fun n => if n < before.length then n else n - 1
  | edit (before after : List Text) {line line' : Text} (hline : LineEdit line line')
      (hsource : source.lines = before ++ line :: after)
      (hsource' : source'.lines = before ++ line' :: after) :
      Reformatted source source' id

section Comments

theorem startsComment_cons_iff (c : Char) (s : Text) :
    StartsComment (c :: s) ↔ c = ';' ∨ c = '#' ∨ c = '/' ∧ s.head? = some '/' := by
  unfold StartsComment
  simp only [List.cons.injEq, List.head?_eq_some_iff]
  constructor
  · rintro ⟨rest, ⟨rfl, -⟩ | ⟨rfl, -⟩ | ⟨rfl, hs⟩⟩
    · exact .inl rfl
    · exact .inr (.inl rfl)
    · exact .inr (.inr ⟨rfl, rest, hs⟩)
  · rintro (rfl | rfl | ⟨rfl, rest, hs⟩)
    · exact ⟨s, .inl ⟨rfl, rfl⟩⟩
    · exact ⟨s, .inr (.inl ⟨rfl, rfl⟩)⟩
    · exact ⟨rest, .inr (.inr ⟨rfl, hs⟩)⟩

theorem startsComment_append_iff (c : Char) (s : Text) {t : Text} (ht : t.head? ≠ some '/') :
    StartsComment (c :: (s ++ t)) ↔ StartsComment (c :: s) := by
  cases s with
  | nil => simp [startsComment_cons_iff, ht]
  | cons d s => simp [startsComment_cons_iff]

/-- A text without a comment goes on with what follows it, unless this makes the slash at its end
the start of a comment. -/
theorem stripComment_append (s : Text) {t : Text} (ht : t.head? ≠ some '/') :
    stripComment (s ++ t) = if stripComment s = s then s ++ stripComment t else stripComment s := by
  induction s with
  | nil => rfl
  | cons c s ih =>
    have hiff := startsComment_append_iff c s ht
    rw [List.cons_append]
    by_cases hc : StartsComment (c :: s)
    · rw [stripComment_of_startsComment (hiff.mpr hc), stripComment_of_startsComment hc,
        if_neg (List.cons_ne_nil c s).symm]
    · rw [stripComment_cons (mt hiff.mp hc), stripComment_cons hc, ih]
      simp only [List.cons.injEq, true_and]
      split <;> rfl

theorem stripComment_gap_append {gap : Text} (hgap : ∀ c ∈ gap, isOperandSeparator c = true)
    (s : Text) : stripComment (gap ++ s) = gap ++ stripComment s := by
  induction gap with
  | nil => rfl
  | cons c gap ih =>
    have hc : isOperandSeparator c = true := hgap c (List.mem_cons_self ..)
    have hstart : ¬ StartsComment (c :: (gap ++ s)) := by
      rintro ⟨rest, h | h | h⟩ <;>
        · obtain rfl := (List.cons.inj h).1
          exact absurd hc (by decide)
    rw [List.cons_append, stripComment_cons hstart,
      ih fun d hd => hgap d (List.mem_cons_of_mem c hd)]
    rfl

theorem stripComment_isPrefix (s : Text) : stripComment s <+: s := by
  obtain ⟨comment, hs, -⟩ := (uncommented_iff s _).mpr rfl
  exact ⟨comment, hs.symm⟩

/-- Other separators in the code of a line do not make a comment. -/
theorem stripComment_separators {front gap gap' back comment : Text} (hne : gap ≠ [])
    (hgap : ∀ c ∈ gap, isOperandSeparator c = true) (hne' : gap' ≠ [])
    (hgap' : ∀ c ∈ gap', isOperandSeparator c = true)
    (hcode : stripComment (front ++ gap ++ back ++ comment) = front ++ gap ++ back) :
    stripComment (front ++ gap' ++ back ++ comment) = front ++ gap' ++ back := by
  have hopens {gap : Text} (hne : gap ≠ []) (hgap : ∀ c ∈ gap, isOperandSeparator c = true) :
      (gap ++ (back ++ comment)).head? ≠ some '/' := by
    obtain ⟨d, gap, rfl⟩ := List.exists_cons_of_ne_nil hne
    intro hd
    obtain rfl : d = '/' := Option.some.inj hd
    exact absurd (hgap '/' (List.mem_cons_self ..)) (by decide)
  simp only [List.append_assoc] at hcode ⊢
  rw [stripComment_append front (hopens hne hgap), stripComment_gap_append hgap] at hcode
  rw [stripComment_append front (hopens hne' hgap'), stripComment_gap_append hgap']
  split at hcode
  · rename_i hfront
    have hback : stripComment (back ++ comment) = back := by simpa using hcode
    rw [if_pos hfront, hback]
  · have hlength := (stripComment_isPrefix front).length_le
    have hpos := List.length_pos_iff.mpr hne
    rw [hcode, List.length_append, List.length_append] at hlength
    omega

theorem startsComment_fold_iff (s : Text) : StartsComment s.fold ↔ StartsComment s := by
  have hsame {c d : Char} (hd : d.toLower = d) (halpha : d.isAlpha = false) :
      c.toLower = d ↔ c = d :=
    ⟨fun h => eq_of_toLower_eq (h.trans hd.symm) halpha, fun h => h ▸ hd⟩
  have hsemicolon (c : Char) : c.toLower = ';' ↔ c = ';' := hsame rfl rfl
  have hhash (c : Char) : c.toLower = '#' ↔ c = '#' := hsame rfl rfl
  have hslash (c : Char) : c.toLower = '/' ↔ c = '/' := hsame rfl rfl
  cases s with
  | nil => rfl
  | cons c s => simp [fold, startsComment_cons_iff, hsemicolon, hhash, hslash]

theorem stripComment_fold (s : Text) : stripComment s.fold = (stripComment s).fold := by
  induction s with
  | nil => rfl
  | cons c s ih =>
    have hiff := startsComment_fold_iff (c :: s)
    by_cases hc : StartsComment (c :: s)
    · rw [stripComment_of_startsComment (hiff.mpr hc), stripComment_of_startsComment hc]
      rfl
    · have hfold : stripComment (fold (c :: s)) = c.toLower :: stripComment (fold s) :=
        stripComment_cons (mt hiff.mp hc)
      rw [hfold, stripComment_cons hc, ih]
      rfl

/-- Other letter case in the code of a line does not make a comment. -/
theorem stripComment_case {front token token' back comment : Text}
    (hcase : token.fold = token'.fold)
    (hcode : stripComment (front ++ token ++ back ++ comment) = front ++ token ++ back) :
    stripComment (front ++ token' ++ back ++ comment) = front ++ token' ++ back := by
  have hfold : (stripComment (front ++ token' ++ back ++ comment)).fold =
      fold (front ++ token ++ back) := by
    rw [← hcode, ← stripComment_fold, ← stripComment_fold]
    simp only [fold_append, hcase]
  have hlength : (stripComment (front ++ token' ++ back ++ comment)).length =
      (front ++ token' ++ back).length := by
    have hlength := congrArg List.length hfold
    have htoken := congrArg List.length hcase
    simp only [fold, List.length_map, List.length_append] at hlength htoken ⊢
    omega
  exact (List.prefix_of_prefix_length_le (stripComment_isPrefix _)
    (List.prefix_append ..) hlength.le).eq_of_length hlength

end Comments

section Statements

theorem trim_gap_append {gap : Text} (hgap : ∀ c ∈ gap, isBlank c = true) (s : Text) :
    (gap ++ s).trim = s.trim := by
  rw [trim, trimStart, List.dropWhile_append_of_pos hgap]
  rfl

theorem trim_gap {gap : Text} (hgap : ∀ c ∈ gap, isBlank c = true) : gap.trim = [] := by
  have h := trim_gap_append hgap []
  rwa [List.append_nil] at h

theorem trimEnd_append_gap {gap : Text} (hgap : ∀ c ∈ gap, isBlank c = true) (s : Text) :
    (s ++ gap).trimEnd = s.trimEnd := by
  have hreverse : ∀ c ∈ gap.reverse, isBlank c = true := fun c hc =>
    hgap c (List.mem_reverse.mp hc)
  rw [trimEnd, List.reverse_append, List.dropWhile_append_of_pos hreverse]
  rfl

theorem trimEnd_append {s : Text} (hs : ∀ c ∈ s, isBlank c = false) (t : Text) :
    (s ++ t).trimEnd = s ++ t.trimEnd := by
  have hkeep : s.reverse.dropWhile isBlank = s.reverse := by
    rw [List.dropWhile_eq_self_iff]
    intro hlength
    rw [hs _ (List.mem_reverse.mp (List.getElem_mem hlength))]
    exact Bool.false_ne_true
  rw [trimEnd, trimEnd, List.reverse_append, List.dropWhile_append]
  split
  · rename_i hnil
    rw [hkeep, List.isEmpty_iff.mp hnil, List.reverse_reverse, List.reverse_nil, List.append_nil]
  · rw [List.reverse_append, List.reverse_reverse]

theorem trim_append_gap {gap : Text} (hgap : ∀ c ∈ gap, isBlank c = true) (s : Text) :
    (s ++ gap).trim = s.trim := by
  by_cases hs : ∀ c ∈ s, isBlank c = true
  · rw [trim_gap hs, trim_gap (List.forall_mem_append.mpr ⟨hs, hgap⟩)]
  · have hstart : (s ++ gap).trimStart = s.trimStart ++ gap := by
      have hne : (s.dropWhile isBlank).isEmpty = false := by
        rw [List.isEmpty_eq_false_iff, Ne, List.dropWhile_eq_nil_iff]
        exact hs
      rw [trimStart, List.dropWhile_append, hne]
      rfl
    rw [trim, hstart, trimEnd_append_gap hgap]
    rfl

theorem trim_trimEnd (s : Text) : s.trimEnd.trim = s.trim := by
  have hgap : ∀ c ∈ s.rtakeWhile isBlank, isBlank c = true := fun c hc => List.mem_rtakeWhile_imp hc
  have hs : s.trimEnd ++ s.rtakeWhile isBlank = s := List.rdropWhile_append_rtakeWhile
  rw [← trim_append_gap hgap s.trimEnd, hs]

theorem all_head?_iff_opens (kind : Char → Bool) (s : Text) :
    s.head?.all kind = true ↔ Opens kind s := by
  cases s <;> simp [Opens]

instance (kind : Char → Bool) (s : Text) : Decidable (Opens kind s) :=
  decidable_of_iff _ (all_head?_iff_opens kind s)

theorem Text.Opens.of_isPrefix {kind : Char → Bool} {s t : Text} (ht : t.Opens kind) (h : s <+: t) :
    s.Opens kind := by
  obtain ⟨rest, rfl⟩ := h
  cases s with
  | nil => exact fun c hc => nomatch hc
  | cons c s => exact ht

/-- A token and what follows it with a blank in between. -/
theorem hasTokens_append {head : Text} (hne : head ≠ []) (hhead : ∀ c ∈ head, isBlank c = false)
    {rest : Text} (hopens : Opens isBlank rest) :
    HasTokens (head ++ rest) head rest.operandTokens :=
  ⟨[], rest, rfl, by simp, hne, hhead, hopens, (separated_iff ..).mpr rfl⟩

theorem HasTokens.gap_append {code head : Text} {tokens : List Text}
    (h : HasTokens code head tokens) {gap : Text} (hgap : ∀ c ∈ gap, isBlank c = true) :
    HasTokens (gap ++ code) head tokens := by
  rw [hasTokens_iff, trim_gap_append hgap]
  exact (hasTokens_iff ..).mp h

theorem HasTokens.trimEnd {code head : Text} {tokens : List Text}
    (h : HasTokens code head tokens) : HasTokens code.trimEnd head tokens := by
  rw [hasTokens_iff, trim_trimEnd]
  exact (hasTokens_iff ..).mp h

variable {lead head head' code code' : Text} {tokens tokens' : List Text}

theorem Respelled.not_label (h : Respelled head head') (hlabel : ∀ name, head ≠ '.' :: name)
    (name : Text) : head' ≠ '.' :: name := by
  rintro rfl
  obtain ⟨d, rest, rfl, hd, -⟩ := fold_eq_cons_iff.mp h.fold_eq
  obtain rfl : d = '.' := eq_of_toLower_eq hd rfl
  exact hlabel rest rfl

/-- Code with the same tokens says the same, a definition or an instruction. -/
theorem RespelledCode.statement {text text' : Text} (h : RespelledCode text text')
    (hlabel : ∀ name, text.splitHead.1 ≠ '.' :: name) :
    RespelledStatement (Statement.ofText text) (Statement.ofText text') := by
  have hfold : text'.splitHead.1.fold = text.splitHead.1.fold := h.1.fold_eq.symm
  by_cases hdefine : text.splitHead.1.fold = defineWord
  · rw [(Statement.ofText_eq_define_iff _ _).mpr ⟨_, rfl, hdefine⟩,
      (Statement.ofText_eq_define_iff _ _).mpr ⟨_, rfl, hfold.trans hdefine⟩]
    exact .define h.2
  · rw [(Statement.ofText_eq_instruction_iff _ _).mpr ⟨rfl, hdefine, hlabel⟩,
      (Statement.ofText_eq_instruction_iff _ _).mpr
        ⟨rfl, hfold ▸ hdefine, h.1.not_label hlabel⟩]
    exact .instruction h

section Labelled
variable {gap name gap' : Text}

theorem trim_labelled (hgap : ∀ c ∈ gap, isBlank c = true) (hname : ∀ c ∈ name, isBlank c = false)
    (code : Text) :
    (gap ++ '.' :: name ++ gap' ++ code).trim = '.' :: name ++ (gap' ++ code).trimEnd := by
  have hblank : ∀ c ∈ '.' :: name, isBlank c = false :=
    List.forall_mem_cons.mpr ⟨by decide, hname⟩
  rw [List.append_assoc, List.append_assoc, trim_gap_append hgap, ← trimEnd_append hblank]
  rfl

theorem ofText_labelled (hname : ∀ c ∈ name, isBlank c = false) (hne : gap' ≠ [])
    (hgap' : ∀ c ∈ gap', isBlank c = true) (code : Text) :
    Statement.ofText ('.' :: name ++ (gap' ++ code).trimEnd) =
      .label name (gap' ++ code).trimEnd.trim := by
  obtain ⟨c, more, rfl⟩ := List.exists_cons_of_ne_nil hne
  have hopens : Opens isBlank (c :: more ++ code) := fun d hd =>
    hgap' d (Option.some.inj hd ▸ List.mem_cons_self ..)
  have hback : Text.trimEnd (c :: more ++ code) <+: c :: more ++ code :=
    List.rdropWhile_prefix ..
  rw [Statement.ofText_eq_label_iff, splitHead_eq_label_iff]
  exact ⟨_, rfl, hname, hopens.of_isPrefix hback, rfl⟩

end Labelled

/-- What follows the same label or blanks says the same when it has the same tokens. -/
theorem respelled_of_leadsTo (hlead : LeadsTo head lead) (hhead : Respelled head head')
    (h : HasTokens code head tokens) (h' : HasTokens code' head' tokens')
    (htokens : List.Forall₂ Respelled tokens tokens') :
    (lead ++ code).trim ≠ [] ∧ (lead ++ code').trim ≠ [] ∧
      RespelledStatement (Statement.ofText (lead ++ code).trim)
        (Statement.ofText (lead ++ code').trim) := by
  cases hlead with
  | alone hgap hlabel =>
    obtain ⟨hne, hsplit, hoperands⟩ := (hasTokens_iff ..).mp (h.gap_append hgap)
    obtain ⟨hne', hsplit', hoperands'⟩ := (hasTokens_iff ..).mp (h'.gap_append hgap)
    have hcode : RespelledCode (lead ++ code).trim (lead ++ code').trim := by
      rw [RespelledCode, hsplit, hsplit', hoperands, hoperands']
      exact ⟨hhead, htokens⟩
    exact ⟨hne, hne', hcode.statement (hsplit ▸ hlabel)⟩
  | @labelled gap name gap' hgap hname hnonempty hgap' =>
    obtain ⟨hne, hsplit, hoperands⟩ := (hasTokens_iff ..).mp (h.gap_append hgap').trimEnd
    obtain ⟨hne', hsplit', hoperands'⟩ := (hasTokens_iff ..).mp (h'.gap_append hgap').trimEnd
    rw [trim_labelled hgap hname, trim_labelled hgap hname, ofText_labelled hname hnonempty hgap',
      ofText_labelled hname hnonempty hgap']
    refine ⟨List.cons_ne_nil '.' _, List.cons_ne_nil '.' _, .label name (iff_of_false hne hne') ?_⟩
    rw [RespelledCode, hsplit, hsplit', hoperands, hoperands']
    exact ⟨hhead, htokens⟩

end Statements

section Lines

def RespelledText (line line' : Text) : Prop :=
  ((stripComment line).trim = [] ↔ (stripComment line').trim = []) ∧
    RespelledStatement (Statement.ofText (stripComment line).trim)
      (Statement.ofText (stripComment line').trim)

theorem RespelledText.of_trim_eq {line line' : Text}
    (h : (stripComment line').trim = (stripComment line).trim) : RespelledText line line' := by
  unfold RespelledText
  rw [h]
  exact ⟨Iff.rfl, .refl _⟩

theorem RespelledText.of_leadsTo {line line' lead head head' code code' : Text}
    {tokens tokens' : List Text} (hline : stripComment line = lead ++ code)
    (hline' : stripComment line' = lead ++ code') (hlead : LeadsTo head lead)
    (hhead : Respelled head head') (h : HasTokens code head tokens)
    (h' : HasTokens code' head' tokens') (htokens : List.Forall₂ Respelled tokens tokens') :
    RespelledText line line' := by
  obtain ⟨hne, hne', hstatement⟩ := respelled_of_leadsTo hlead hhead h h' htokens
  unfold RespelledText
  rw [hline, hline']
  exact ⟨iff_of_false hne hne', hstatement⟩

theorem Text.Opens.append {kind : Char → Bool} {s : Text} (hs : s.Opens kind) (hne : s ≠ [])
    (t : Text) : Text.Opens kind (s ++ t) := by
  obtain ⟨c, s, rfl⟩ := List.exists_cons_of_ne_nil hne
  exact hs

/-- Behind the first token only the operand tokens count. -/
theorem RespelledText.of_reachesOperands {line line' front back back' : Text}
    (hline : stripComment line = front ++ back) (hline' : stripComment line' = front ++ back')
    (hfront : ReachesOperands front)
    (htokens : ∀ rest : Text, rest ≠ [] → rest <:+ front →
      List.Forall₂ Respelled (rest ++ back).operandTokens (rest ++ back').operandTokens) :
    RespelledText line line' := by
  obtain ⟨lead, head, rest, rfl, hlead, hne, hhead, hrest, hopens⟩ := hfront
  rw [List.append_assoc, List.append_assoc] at hline hline'
  exact .of_leadsTo hline hline' hlead (.refl head)
    (hasTokens_append hne hhead (hopens.append hrest back))
    (hasTokens_append hne hhead (hopens.append hrest back'))
    (htokens rest hrest (List.suffix_append ..))

theorem ne_nil_of_isReserved {token : Text} (h : token.isReserved = true) : token ≠ [] := by
  rintro rfl
  cases h

/-- Other letter case leaves a kind without letters as it is. -/
theorem forall_kind_of_fold {kind : Char → Bool} (hkind : ∀ c : Char, kind c.toLower = kind c)
    {s s' : Text} (h : s.fold = s'.fold) (hs : ∀ c ∈ s, kind c = false) :
    ∀ c ∈ s', kind c = false := by
  intro c hc
  have hmem : c.toLower ∈ s.fold := h ▸ List.mem_map_of_mem hc
  obtain ⟨d, hd, hlower⟩ := List.mem_map.mp hmem
  rw [← hkind c, ← hlower, hkind d, hs d hd]

theorem isOperandSeparator_toLower (c : Char) :
    isOperandSeparator c.toLower = isOperandSeparator c := by
  have hcomma : (c.toLower == ',') = (c == ',') := by
    refine kind_toLower (· == ',') false (fun c hc => ?_) c
    rw [beq_eq_false_iff_ne]
    rintro rfl
    cases hc
  rw [isOperandSeparator, isOperandSeparator, isBlank_toLower, hcomma]

theorem operandTokens_gap {gap : Text} (hne : gap ≠ [])
    (hgap : ∀ c ∈ gap, isOperandSeparator c = true) (front back : Text) :
    (front ++ (gap ++ back)).operandTokens = front.operandTokens ++ back.operandTokens := by
  obtain ⟨c, gap, rfl⟩ := List.exists_cons_of_ne_nil hne
  obtain ⟨hc, hgap⟩ := List.forall_mem_cons.mp hgap
  rw [operandTokens, List.cons_append, words_append_cons _ _ hc, words_gap_append hgap]
  rfl

/-- A token behind a separator is one of the operand tokens. -/
theorem operandTokens_token {front token back : Text} (hfront : front ≠ [])
    (hlast : ∀ c ∈ front.getLast?, isOperandSeparator c = true) (hne : token ≠ [])
    (htoken : ∀ c ∈ token, isOperandSeparator c = false) (hback : Opens isOperandSeparator back) :
    (front ++ (token ++ back)).operandTokens =
      front.operandTokens ++ token :: back.operandTokens := by
  have hc := hlast _ (List.getLast?_eq_some_getLast hfront)
  rw [← List.dropLast_append_getLast hfront, operandTokens, operandTokens, List.append_assoc,
    List.singleton_append, words_append_cons _ _ hc, words_piece_append hne htoken hback,
    words_append_cons _ _ hc, List.append_assoc]
  rfl

theorem trim_stripComment_comment (line : Text) {gap comment : Text}
    (hgap : ∀ c ∈ gap, isBlank c = true)
    (hcomment : ∃ rest, comment = ';' :: rest ∨ comment = '#' :: rest) :
    (stripComment (line ++ gap ++ comment)).trim = (stripComment line).trim := by
  have hnone : stripComment comment = [] := by
    obtain ⟨rest, rfl | rfl⟩ := hcomment <;> rfl
  have hhead : (gap ++ comment).head? ≠ some '/' := by
    cases gap with
    | nil => obtain ⟨rest, rfl | rfl⟩ := hcomment <;> exact nofun
    | cons c gap =>
      rintro hc
      obtain rfl : c = '/' := Option.some.inj hc
      exact absurd (hgap '/' (List.mem_cons_self ..)) (by decide)
  rw [List.append_assoc, stripComment_append line hhead,
    stripComment_gap_append fun c hc => isOperandSeparator_of_isBlank (hgap c hc), hnone,
    List.append_nil]
  split
  · rename_i hline
    rw [trim_append_gap hgap, hline]
  · rfl

/-- An edited line says what it said before. -/
theorem LineEdit.respelled {line line' : Text} (h : LineEdit line line') :
    RespelledText line line' := by
  cases h with
  | comment line hgap hcomment => exact .of_trim_eq (trim_stripComment_comment line hgap hcomment)
  | separators hfront hne hgap hne' hgap' hcode =>
    have hcode' := stripComment_separators hne hgap hne' hgap' hcode
    refine .of_reachesOperands (hcode.trans (List.append_assoc ..))
      (hcode'.trans (List.append_assoc ..)) hfront fun rest _ _ => ?_
    rw [operandTokens_gap hne hgap, operandTokens_gap hne' hgap']
    exact Respelled.forall₂_refl _
  | headCase hlead hhead hreserved hcase hback hcode =>
    have hne := ne_nil_of_isReserved hreserved
    have hne' := ne_nil_of_isReserved ((isReserved_fold hcase).symm.trans hreserved)
    have hcode' := stripComment_case hcase hcode
    exact .of_leadsTo (hcode.trans (List.append_assoc ..))
      (hcode'.trans (List.append_assoc ..)) hlead (.inr ⟨hreserved, hcase⟩)
      (hasTokens_append hne hhead hback)
      (hasTokens_append hne' (forall_kind_of_fold isBlank_toLower hcase hhead) hback)
      (Respelled.forall₂_refl _)
  | operandCase hfront hlast htoken hreserved hcase hback hcode =>
    have hne := ne_nil_of_isReserved hreserved
    have hne' := ne_nil_of_isReserved ((isReserved_fold hcase).symm.trans hreserved)
    have htoken' := forall_kind_of_fold isOperandSeparator_toLower hcase htoken
    have hcode' := stripComment_case hcase hcode
    refine .of_reachesOperands (hcode.trans (List.append_assoc ..))
      (hcode'.trans (List.append_assoc ..)) hfront fun rest hrest hsuffix => ?_
    have hlast : ∀ c ∈ rest.getLast?, isOperandSeparator c = true := by
      obtain ⟨before, rfl⟩ := hsuffix
      rwa [List.getLast?_append_of_ne_nil _ hrest] at hlast
    rw [operandTokens_token hrest hlast hne htoken hback,
      operandTokens_token hrest hlast hne' htoken' hback]
    exact List.rel_append (Respelled.forall₂_refl _)
      (.cons (.inr ⟨hreserved, hcase⟩) (Respelled.forall₂_refl _))

def SourceLine.ofLines (number : Nat) (lines : List Text) : List SourceLine :=
  ((lines.zipIdx number).map fun (line, number) => ⟨number, (stripComment line).trim⟩).filter
    fun line => !line.text.isEmpty

theorem SourceLine.ofLines_append (number : Nat) (before after : List Text) :
    ofLines number (before ++ after) =
      ofLines number before ++ ofLines (number + before.length) after := by
  unfold ofLines
  rw [List.zipIdx_append, List.map_append, List.filter_append]

theorem SourceLine.ofLines_cons (number : Nat) (line : Text) (rest : List Text) :
    ofLines number (line :: rest) =
      (if (stripComment line).trim = [] then [] else [⟨number, (stripComment line).trim⟩]) ++
        ofLines (number + 1) rest := by
  unfold ofLines
  rw [List.zipIdx_cons, List.map_cons, List.filter_cons]
  by_cases hline : (stripComment line).trim = []
  · simp [hline]
  · simp [hline]

/-- Lines that stay as they are say the same under other numbers. -/
theorem forall₂_ofLines {f : Nat → Nat} {number number' : Nat} (lines : List Text)
    (h : ∀ k < lines.length, f (number + k) = number' + k) :
    List.Forall₂ (RespelledLine f) (SourceLine.ofLines number lines)
      (SourceLine.ofLines number' lines) := by
  induction lines generalizing number number' with
  | nil => exact .nil
  | cons line rest ih =>
    have hfirst : f number = number' := h 0 (Nat.zero_lt_succ rest.length)
    have hrest : ∀ k < rest.length, f (number + 1 + k) = number' + 1 + k := by
      intro k hk
      rw [Nat.add_assoc, Nat.add_comm 1 k, h (k + 1) (Nat.succ_lt_succ hk)]
      omega
    rw [SourceLine.ofLines_cons, SourceLine.ofLines_cons]
    refine List.rel_append ?_ (ih hrest)
    split
    · exact .nil
    · exact .cons ⟨hfirst.symm, .refl _⟩ .nil

end Lines

/-- Reformatting a source text makes no difference. -/
theorem assemble_reformatted {source source' : Text} {f : Nat → Nat}
    (h : Reformatted source source' f) : SameOutcome f (assemble source) (assemble source') := by
  apply sameOutcome_of_respelled
  have hlines (source : Text) : SourceLine.ofText source = SourceLine.ofLines 0 source.lines := rfl
  rw [hlines, hlines]
  cases h with
  | insert before after line hline hsource hsource' =>
    rw [hsource, hsource', SourceLine.ofLines_append, SourceLine.ofLines_append,
      SourceLine.ofLines_cons, if_pos hline, List.nil_append]
    refine List.rel_append (forall₂_ofLines before ?_) (forall₂_ofLines after ?_)
    · intro k hk
      rw [if_pos (by omega)]
    · intro k _
      rw [if_neg (by omega)]
      omega
  | delete before after line hline hsource hsource' =>
    rw [hsource, hsource', SourceLine.ofLines_append, SourceLine.ofLines_append,
      SourceLine.ofLines_cons, if_pos hline, List.nil_append]
    refine List.rel_append (forall₂_ofLines before ?_) (forall₂_ofLines after ?_)
    · intro k hk
      rw [if_pos (by omega)]
    · intro k _
      rw [if_neg (by omega)]
      omega
  | edit before after hline hsource hsource' =>
    obtain ⟨hnil, hstatement⟩ := hline.respelled
    rw [hsource, hsource', SourceLine.ofLines_append, SourceLine.ofLines_append,
      SourceLine.ofLines_cons, SourceLine.ofLines_cons]
    refine List.rel_append (forall₂_ofLines before fun _ _ => rfl)
      (List.rel_append ?_ (forall₂_ofLines after fun _ _ => rfl))
    simp only [hnil]
    split
    · exact .nil
    · exact .cons ⟨rfl, hstatement⟩ .nil

/-- A jump back, with a line more, with other separators, and with a condition in capitals. -/
theorem assemble_reformatted_jump :
    let source := ".top ldi r1, 5\n brh eq top // again".toList
    assemble source = .ok ⟨#[0x8105, 0xB000], #[0, 1]⟩ ∧
      SameOutcome (fun n => if n < 1 then n else n + 1) (assemble source)
        (assemble ".top ldi r1, 5\n  # to the top\n brh eq top // again".toList) ∧
      SameOutcome id (assemble source)
        (assemble ".top ldi r1, 5\n brh eq,\ttop // again".toList) ∧
      SameOutcome id (assemble source)
        (assemble ".top ldi r1, 5\n brh EQ top // again".toList) := by
  have hlead : LeadsTo "brh".toList [' '] := .alone (List.forall_mem_singleton.mpr rfl) nofun
  have hbrh : ∀ c ∈ "brh".toList, isBlank c = false := not_isBlank_of_isSymbolName (by decide)
  have hgap : LineEdit (" brh eq".toList ++ " ".toList ++ "top ".toList ++ "// again".toList)
      (" brh eq".toList ++ ",\t".toList ++ "top ".toList ++ "// again".toList) :=
    .separators
      ⟨[' '], "brh".toList, " eq".toList, rfl, hlead, by decide, hbrh, by decide, by decide⟩
      (by decide) (List.all_eq_true.mp (by decide)) (by decide) (List.all_eq_true.mp (by decide))
      (by decide)
  have hcase : LineEdit (" brh ".toList ++ "eq".toList ++ " top ".toList ++ "// again".toList)
      (" brh ".toList ++ "EQ".toList ++ " top ".toList ++ "// again".toList) :=
    .operandCase ⟨[' '], "brh".toList, [' '], rfl, hlead, by decide, hbrh, by decide, by decide⟩
      (fun c hc => Option.some.inj hc ▸ rfl)
      (List.forall_mem_cons.mpr ⟨rfl, List.forall_mem_singleton.mpr rfl⟩) (by decide) (by decide)
      (by decide) (by decide)
  refine ⟨by decide +kernel, ?_, ?_, ?_⟩
  · exact assemble_reformatted (.insert [".top ldi r1, 5".toList] [" brh eq top // again".toList]
      "  # to the top".toList (by decide) (by decide) (by decide))
  · exact assemble_reformatted (.edit [".top ldi r1, 5".toList] [] hgap (by decide) (by decide))
  · exact assemble_reformatted (.edit [".top ldi r1, 5".toList] [] hcase (by decide) (by decide))

end ByteMachine
