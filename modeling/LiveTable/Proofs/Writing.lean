import LiveTable.Proofs.Documents
import LiveTable.Proofs.NumberTexts

/-!
# Documents read back

The text of a document is cut into the tokens of the document, on one line. Texts come back as they are whatever
characters they hold, integers of sixty-four bits come back as they are, and a number that is not finite comes
back as null.
-/

namespace LiveTable.Json

variable {c : Char} {cs rest : List Char} {ts : List Token} {t : Token} {seen : List Char}

/-! ## Steps of the first pass -/

/-- A character that completes no token only moves the first pass on. -/
theorem tokensFrom_quiet {state next : Scan} (quiet : scan state c = some ([], next)) :
    tokensFrom state (c :: rest) = tokensFrom next rest := by
  rw [tokensFrom, quiet]
  simp

theorem tokensFrom_cons {state next : Scan} (scans : scan state c = some (ts, next)) :
    tokensFrom state (c :: rest) = (tokensFrom next rest).map (ts ++ ·) := by
  rw [tokensFrom, scans]
  simp [Option.map_eq_bind]

/-- What comes next ends a word or a number. -/
def Delimited (rest : List Char) : Prop :=
  ∀ c ∈ rest.head?, isNumberChar c = false ∧ c.isAlphanum = false

/-- A token that is complete when something else begins is followed by the tokens of the rest. -/
theorem tokensFrom_ended {state : Scan} {token? : Option Token} (whole : token? = some t)
    (ends : scanEnd state = token?.map ([·]))
    (turns : ∀ c ∈ rest.head?, scan state c = do
      let token ← token?
      let (tokens, next) ← start c
      some (token :: tokens, next)) :
    tokensFrom state rest = (tokensFrom .between rest).map (t :: ·) := by
  subst whole
  cases rest with
  | nil =>
    rw [tokensFrom, tokensFrom, ends]
    rfl
  | cons c rest =>
    rw [tokensFrom, turns c rfl, tokensFrom, scan]
    cases start c with
    | none => rfl
    | some found => simp [Option.map_eq_bind, Option.bind_assoc]

/-! ## Texts -/

theorem hexValue?_hexDigit : ∀ n < 16, hexValue? (hexDigit n) = some n := by decide

/-- An escaped character is read as the character. -/
theorem tokensFrom_escape (c : Char) (seen rest : List Char) :
    tokensFrom (.quoted seen) (escape c ++ rest) = tokensFrom (.quoted (c :: seen)) rest := by
  have short {c mark : Char} (short : shortEscape mark = some c) (letter : mark ≠ 'u') :
      tokensFrom (.quoted seen) ('\\' :: mark :: rest) = tokensFrom (.quoted (c :: seen)) rest := by
    rw [tokensFrom_quiet rfl, tokensFrom_quiet]
    rw [scan, if_neg letter, short]
    rfl
  unfold escape
  split_ifs with quote backslash newline return' tab back feed control
  · exact short (by rw [quote, shortEscape]) (by decide)
  · exact short (by rw [backslash, shortEscape]) (by decide)
  · exact short (by rw [newline, shortEscape]) (by decide)
  · exact short (by rw [return', shortEscape]) (by decide)
  · exact short (by rw [tab, shortEscape]) (by decide)
  · exact short (by rw [back, shortEscape]) (by decide)
  · exact short (by rw [feed, shortEscape]) (by decide)
  · have high := hexValue?_hexDigit (c.toNat / 16) (by omega)
    have low := hexValue?_hexDigit (c.toNat % 16) (by omega)
    have code : afterCode seen none c.toNat = some (.quoted (c :: seen)) := by
      rw [afterCode, if_neg (by omega), if_neg (by omega), Char.ofNat_toNat]
    have first : scan (.code seen none 2 0) (hexDigit (c.toNat / 16)) = some ([], .code seen none 1 (c.toNat / 16)) := by
      rw [scan, high]
      simp
    have second : scan (.code seen none 1 (c.toNat / 16)) (hexDigit (c.toNat % 16)) =
        some ([], .quoted (c :: seen)) := by
      rw [scan, low]
      simp [Nat.div_add_mod, code]
    simp only [List.cons_append, List.nil_append]
    rw [tokensFrom_quiet rfl, tokensFrom_quiet rfl, tokensFrom_quiet rfl, tokensFrom_quiet rfl]
    exact (tokensFrom_quiet first).trans (tokensFrom_quiet second)
  · rw [List.singleton_append, tokensFrom_quiet]
    rw [scan, if_neg quote, if_neg backslash, if_neg control]

theorem tokensFrom_escapes (cs seen rest : List Char) :
    tokensFrom (.quoted seen) (cs.flatMap escape ++ '"' :: rest) =
      (tokensFrom .between rest).map (.string (String.ofList (seen.reverse ++ cs)) :: ·) := by
  induction cs generalizing seen with
  | nil =>
    rw [List.flatMap_nil, List.nil_append, List.append_nil, tokensFrom_cons (by rw [scan, if_pos rfl])]
    rfl
  | cons c cs ih =>
    rw [List.flatMap_cons, List.append_assoc, tokensFrom_escape, ih, List.reverse_cons, List.append_assoc,
      List.singleton_append]

theorem escape_line (c : Char) : '\n' ∉ escape c := by
  have hex : ∀ n < 16, hexDigit n ≠ '\n' := by decide
  unfold escape
  split_ifs with quote backslash newline return' tab back feed control
  · decide
  · decide
  · decide
  · decide
  · decide
  · decide
  · decide
  · simpa using ⟨(hex (c.toNat / 16) (by omega)).symm, (hex (c.toNat % 16) (by omega)).symm⟩
  · simpa using Ne.symm newline

/-! ## Lines that are cut into tokens -/

/-- Characters on one line that are cut into tokens, unless what comes next goes on with the last of them. -/
structure Cut (cs : List Char) (ts : List Token) : Prop where
  line : '\n' ∉ cs
  scans : ∀ rest, Delimited rest → tokensFrom .between (cs ++ rest) = (tokensFrom .between rest).map (ts ++ ·)

/-- A character that is a token and ends what stands in front of it. -/
structure Mark (c : Char) (t : Token) : Prop where
  starts : start c = some ([t], .between)
  delimits : isNumberChar c = false ∧ c.isAlphanum = false
  line : c ≠ '\n'

theorem cut_nil : Cut [] [] := ⟨by simp, by simp⟩

theorem Mark.delimited (mark : Mark c t) (rest : List Char) : Delimited (c :: rest) := by
  rintro _ ⟨⟩
  exact mark.delimits

theorem Mark.scans (mark : Mark c t) (rest : List Char) :
    tokensFrom .between (c :: rest) = (tokensFrom .between rest).map (t :: ·) := by
  have scans : scan .between c = some ([t], .between) := mark.starts
  exact tokensFrom_cons scans

/-- Two lines with a mark between them. -/
theorem Cut.joined {cs' : List Char} {ts' : List Token} (cut : Cut cs ts) (mark : Mark c t) (cut' : Cut cs' ts') :
    Cut (cs ++ c :: cs') (ts ++ t :: ts') where
  line := by simp [cut.line, cut'.line, mark.line.symm]
  scans rest delimited := by
    rw [List.append_assoc, List.cons_append, cut.scans _ (mark.delimited _), mark.scans, cut'.scans rest delimited]
    simp [Option.map_map, Function.comp_def]

/-- A line between two marks. -/
theorem Cut.enclosed {c' : Char} {t' : Token} (cut : Cut cs ts) (mark : Mark c t) (mark' : Mark c' t') :
    Cut (c :: (cs ++ [c'])) (t :: (ts ++ [t'])) :=
  cut_nil.joined mark (cut.joined mark' cut_nil)

theorem cut_quote (s : String) : Cut (quote s).toList [.string s] where
  line := by
    have escapes : ∀ c ∈ s.toList, '\n' ∉ escape c := fun c _ => escape_line c
    simpa [quote] using escapes
  scans rest _ := by
    rw [quote, String.toList_ofList, List.cons_append, List.append_assoc, List.singleton_append,
      tokensFrom_quiet rfl, tokensFrom_escapes]
    simp

/-! ## Words and numbers -/

/-- The characters that a word or a number goes on with are taken together. -/
theorem tokensFrom_run {state : List Char → Scan} {property : Char → Bool}
    (goesOn : ∀ seen c, property c = true → scan (state seen) c = some ([], state (c :: seen)))
    (all : ∀ c ∈ cs, property c = true) :
    tokensFrom (state seen) (cs ++ rest) = tokensFrom (state (cs.reverse ++ seen)) rest := by
  induction cs generalizing seen with
  | nil => rfl
  | cons c cs ih =>
    obtain ⟨own, others⟩ := List.forall_mem_cons.mp all
    rw [List.cons_append, tokensFrom_quiet (goesOn seen c own), ih others, List.reverse_cons, List.append_assoc,
      List.singleton_append]

theorem number_goesOn (seen : List Char) (c : Char) (own : isNumberChar c = true) :
    scan (.number seen) c = some ([], .number (c :: seen)) := by
  rw [scan, if_pos own]

theorem word_goesOn (seen : List Char) (c : Char) (own : c.isAlphanum = true) :
    scan (.word seen) c = some ([], .word (c :: seen)) := by
  rw [scan, if_pos own]

theorem start_number (begins : c.isDigit = true ∨ c = '-') : start c = some ([], .number [c]) := by
  have other (mark : Char) (differs : mark.isDigit = false ∧ mark ≠ '-') : c ≠ mark := by
    rintro rfl
    rcases begins with digit | sign
    · exact absurd (digit.symm.trans differs.1) (by decide)
    · exact differs.2 sign
  have number : (c.isDigit || decide (c = '-')) = true := by simpa using begins
  unfold start isSpace
  simp only [other ' ' (by decide), other '\t' (by decide), other '\n' (by decide), other '\r' (by decide),
    other '[' (by decide), other ']' (by decide), other '\x7b' (by decide), other '\x7d' (by decide),
    other ',' (by decide), other ':' (by decide), other '"' (by decide), decide_false, Bool.or_self,
    Bool.false_eq_true, if_false]
  rw [if_pos number]

theorem NumberText.Proper.isNumberChar {n : NumberText} (proper : n.Proper) :
    ∀ c ∈ n.chars, Json.isNumberChar c = true := by
  have digits {digits : List Char} (proper : NumberText.Digits digits) : ∀ c ∈ digits, Json.isNumberChar c = true := by
    intro c member
    simp [Json.isNumberChar, proper.2 c member]
  simp only [chars, List.forall_mem_append]
  refine ⟨⟨⟨?_, digits proper.whole⟩, ?_⟩, ?_⟩
  · cases n.negative with
    | true => exact List.all_eq_true.mp rfl
    | false => exact List.all_eq_true.mp rfl
  · cases fraction : n.fraction with
    | none => simp
    | some fraction' => exact List.forall_mem_cons.mpr ⟨by decide, digits (proper.fraction fraction' fraction)⟩
  · rcases exponent : n.exponent with _ | ⟨down, power⟩
    · simp
    · refine List.forall_mem_cons.mpr ⟨by decide, List.forall_mem_cons.mpr ⟨?_, ?_⟩⟩
      · cases down <;> decide
      · exact digits (proper.exponent down power exponent)

theorem NumberText.Proper.starts {n : NumberText} (proper : n.Proper) :
    ∃ c cs, n.chars = c :: cs ∧ (c.isDigit = true ∨ c = '-') := by
  obtain ⟨c, more, whole⟩ := List.exists_cons_of_ne_nil proper.whole.1
  rw [chars_eq, whole]
  cases n.negative with
  | true => exact ⟨'-', _, rfl, .inr rfl⟩
  | false => exact ⟨c, _, rfl, .inl (proper.whole.2 c (by simp [whole]))⟩

/-- A number is cut into its value. -/
theorem cut_number {n : NumberText} {j : Json} (proper : n.Proper) (value : n.value? = some j) :
    Cut n.chars [.scalar j] where
  line member := absurd (proper.isNumberChar _ member) (by decide)
  scans rest delimited := by
    obtain ⟨c, cs, shape, begins⟩ := proper.starts
    have quiet : scan .between c = some ([], .number [c]) := start_number begins
    have all := (List.forall_mem_cons.mp (shape ▸ proper.isNumberChar)).2
    have whole : numberToken (cs.reverse ++ [c]) = some (.scalar j) := by
      rw [numberToken, ← List.reverse_cons, List.reverse_reverse, ← shape, NumberText.ofChars?_chars proper]
      simp [value]
    rw [shape, List.cons_append, tokensFrom_quiet quiet, tokensFrom_run number_goesOn all]
    refine tokensFrom_ended whole rfl fun c next => ?_
    rw [scan, if_neg (by simp [(delimited c next).1])]

theorem cut_word {j : Json} (begins : start c = some ([], .word [c]))
    (all : cs.all Char.isAlphanum = true) (value : wordToken (c :: cs).reverse = some (.scalar j)) :
    Cut (c :: cs) [.scalar j] where
  line member := by
    rcases List.mem_cons.mp member with rfl | later
    · cases begins
    · exact absurd (List.all_eq_true.mp all _ later) (by decide)
  scans rest delimited := by
    have quiet : scan .between c = some ([], .word [c]) := begins
    rw [List.cons_append, tokensFrom_quiet quiet, tokensFrom_run word_goesOn (List.all_eq_true.mp all), ← List.reverse_cons]
    refine tokensFrom_ended value rfl fun c next => ?_
    rw [scan, if_neg (by simp [(delimited c next).2])]

theorem cut_null : Cut "null".toList [.scalar .null] := by
  have letters : "null".toList = ['n', 'u', 'l', 'l'] := by decide
  rw [letters]
  exact cut_word rfl rfl rfl

theorem cut_bool (b : Bool) : Cut (if b then "true" else "false").toList [.scalar (.bool b)] := by
  have letters : "true".toList = ['t', 'r', 'u', 'e'] ∧ "false".toList = ['f', 'a', 'l', 's', 'e'] := by decide
  cases b with
  | true =>
    rw [if_pos rfl, letters.1]
    exact cut_word rfl rfl rfl
  | false =>
    rw [if_neg (by decide), letters.2]
    exact cut_word rfl rfl rfl

/-! ## Documents -/

mutual

/-- The document that the text of a document holds: a number that is not an integer is what its text is read as. -/
def reread : Json → Json
  | .real x => if x.isFinite then (written x).value?.getD .null else .null
  | .array items => .array (rereadItems items)
  | .object members => .object (rereadMembers members)
  | doc => doc

def rereadItems : List Json → List Json
  | [] => []
  | item :: rest => reread item :: rereadItems rest

def rereadMembers : List (String × Json) → List (String × Json)
  | [] => []
  | (name, item) :: rest => (name, reread item) :: rereadMembers rest

end

mutual

/-- The integers of a document are integers of sixty-four bits, with or without a sign. -/
def Bounded : Json → Prop
  | .integer n => -(pow2 63 : Int) ≤ n ∧ n < pow2 64
  | .array items => BoundedItems items
  | .object members => BoundedMembers members
  | _ => True

def BoundedItems : List Json → Prop
  | [] => True
  | item :: rest => Bounded item ∧ BoundedItems rest

def BoundedMembers : List (String × Json) → Prop
  | [] => True
  | (_, item) :: rest => Bounded item ∧ BoundedMembers rest

end

theorem reread_real (x : Binary64) : reread (.real x) = .null ∧ x.isFinite = false ∨
    ∃ y, reread (.real x) = .real y ∧ (written x).value? = some (.real y) ∧ x.isFinite = true := by
  cases finite : x.isFinite with
  | false => exact .inl ⟨by rw [reread, finite]; rfl, rfl⟩
  | true =>
    obtain ⟨y, value⟩ := exists_value_written finite
    exact .inr ⟨y, by rw [reread, finite, value]; rfl, value, rfl⟩

theorem cut_real (x : Binary64) : Cut (writeReal x).toList (reread (.real x)).tokens := by
  rcases reread_real x with ⟨same, infinite⟩ | ⟨y, same, value, finite⟩
  · rw [same, writeReal, infinite]
    exact cut_null
  · rw [same, writeReal, if_pos finite, chars_written finite]
    exact cut_number (proper_written x) value

theorem cut_integer {n : Int} (bounded : Bounded (.integer n)) : Cut (toString n).toList [.scalar (.integer n)] := by
  rw [← NumberText.chars_ofInt]
  exact cut_number (NumberText.proper_ofInt n) (NumberText.value?_ofInt bounded.1 bounded.2)

theorem mark_comma : Mark ',' .comma := ⟨rfl, by decide, by decide⟩
theorem mark_colon : Mark ':' .colon := ⟨rfl, by decide, by decide⟩
theorem mark_openArray : Mark '[' .openArray := ⟨rfl, by decide, by decide⟩
theorem mark_closeArray : Mark ']' .closeArray := ⟨rfl, by decide, by decide⟩
theorem mark_openObject : Mark '\x7b' .openObject := ⟨rfl, by decide, by decide⟩
theorem mark_closeObject : Mark '\x7d' .closeObject := ⟨rfl, by decide, by decide⟩

mutual

/-- The text of a document is one line, and it is cut into the tokens of what is read back. -/
theorem cut_write (doc : Json) (bounded : doc.Bounded) : Cut doc.write.toList doc.reread.tokens := by
  cases doc with
  | null => exact cut_null
  | bool b => exact cut_bool b
  | integer n => exact cut_integer bounded
  | real x => exact cut_real x
  | string s => exact cut_quote s
  | array items =>
    have inner := cut_items items bounded
    have text : (write (.array items)).toList = '[' :: ((",".intercalate (writeItems items)).toList ++ [']']) := by
      simp [write]
    rw [text, reread, tokens]
    exact inner.enclosed mark_openArray mark_closeArray
  | object members =>
    have inner := cut_members members bounded
    have text : (write (.object members)).toList =
        '\x7b' :: ((",".intercalate (writeMembers members)).toList ++ ['\x7d']) := by
      simp [write]
    rw [text, reread, tokens]
    exact inner.enclosed mark_openObject mark_closeObject

theorem cut_items (docs : List Json) (bounded : BoundedItems docs) :
    Cut (",".intercalate (writeItems docs)).toList (itemTokens (rereadItems docs)) := by
  cases docs with
  | nil => exact cut_nil
  | cons doc docs =>
    obtain ⟨own, others⟩ := bounded
    have first := cut_write doc own
    cases docs with
    | nil => simpa [writeItems, rereadItems, itemTokens] using first
    | cons next docs =>
      have rest := cut_items (next :: docs) others
      have text : (",".intercalate (writeItems (doc :: next :: docs))).toList =
          doc.write.toList ++ ',' :: (",".intercalate (writeItems (next :: docs))).toList := by
        simp [writeItems]
      rw [text]
      exact first.joined mark_comma rest

theorem cut_members (members : List (String × Json)) (bounded : BoundedMembers members) :
    Cut (",".intercalate (writeMembers members)).toList (memberTokens (rereadMembers members)) := by
  cases members with
  | nil => exact cut_nil
  | cons member members =>
    obtain ⟨name, doc⟩ := member
    obtain ⟨own, others⟩ := bounded
    have first : Cut (quote name ++ ":" ++ write doc).toList (.string name :: .colon :: doc.reread.tokens) := by
      have text : (quote name ++ ":" ++ write doc).toList = (quote name).toList ++ ':' :: doc.write.toList := by simp
      rw [text]
      exact (cut_quote name).joined mark_colon (cut_write doc own)
    cases members with
    | nil => simpa [-String.toList_intercalate, writeMembers, rereadMembers, memberTokens] using first
    | cons next members =>
      obtain ⟨name', doc'⟩ := next
      have rest := cut_members ((name', doc') :: members) others
      have text : (",".intercalate (writeMembers ((name, doc) :: (name', doc') :: members))).toList =
          (quote name ++ ":" ++ write doc).toList ++
            ',' :: (",".intercalate (writeMembers ((name', doc') :: members))).toList := by
        simp [writeMembers]
      have both := first.joined mark_comma rest
      rw [text, rereadMembers, rereadMembers, memberTokens]
      rw [rereadMembers] at both
      exact both

end

/-- The text of a document writes what is read back. -/
theorem spelled_write {doc : Json} (bounded : doc.Bounded) : Spelled doc.write doc.reread := by
  have cut := (cut_write doc bounded).scans [] (by simp [Delimited])
  have ends : tokensFrom .between [] = some [] := rfl
  rw [List.append_nil, ends] at cut
  rw [Spelled, cut]
  simp

mutual

theorem depth_reread (doc : Json) : doc.reread.depth = doc.depth := by
  cases doc with
  | real x =>
    rcases reread_real x with ⟨same, -⟩ | ⟨y, same, -⟩ <;> rw [same] <;> rfl
  | array items => rw [reread, depth, depth, depth_rereadItems]
  | object members => rw [reread, depth, depth, depth_rereadMembers]
  | _ => rfl

theorem depth_rereadItems (docs : List Json) : itemsDepth (rereadItems docs) = itemsDepth docs := by
  cases docs with
  | nil => rfl
  | cons doc docs => rw [rereadItems, itemsDepth, itemsDepth, depth_reread, depth_rereadItems]

theorem depth_rereadMembers (members : List (String × Json)) :
    membersDepth (rereadMembers members) = membersDepth members := by
  cases members with
  | nil => rfl
  | cons member members => rw [rereadMembers, membersDepth, membersDepth, depth_reread, depth_rereadMembers]

end

/-- A document that is not too deep can be read from its text. -/
theorem read?_write {doc : Json} (bounded : doc.Bounded) (shallow : doc.depth ≤ maxDepth) :
    read? doc.write = some doc.reread.merged :=
  read?_eq_some_iff.mpr ⟨doc.reread, spelled_write bounded, doc.depth_reread.le.trans shallow, rfl⟩

/-! ## Items and members -/

theorem boundedItems_iff {docs : List Json} : BoundedItems docs ↔ ∀ doc ∈ docs, doc.Bounded := by
  induction docs with
  | nil => simp [BoundedItems]
  | cons doc docs ih => rw [BoundedItems, ih, List.forall_mem_cons]

theorem boundedMembers_iff {members : List (String × Json)} :
    BoundedMembers members ↔ ∀ member ∈ members, member.2.Bounded := by
  induction members with
  | nil => simp [BoundedMembers]
  | cons member members ih => rw [BoundedMembers, ih, List.forall_mem_cons]

theorem itemsDepth_le {docs : List Json} {limit : Nat} (shallow : ∀ doc ∈ docs, doc.depth ≤ limit) :
    itemsDepth docs ≤ limit := by
  induction docs with
  | nil => exact Nat.zero_le _
  | cons doc docs ih =>
    obtain ⟨own, others⟩ := List.forall_mem_cons.mp shallow
    exact Nat.max_le.mpr ⟨own, ih others⟩

theorem membersDepth_le {members : List (String × Json)} {limit : Nat}
    (shallow : ∀ member ∈ members, member.2.depth ≤ limit) : membersDepth members ≤ limit := by
  induction members with
  | nil => exact Nat.zero_le _
  | cons member members ih =>
    obtain ⟨own, others⟩ := List.forall_mem_cons.mp shallow
    exact Nat.max_le.mpr ⟨own, ih others⟩

theorem rereadMembers_eq_map (members : List (String × Json)) :
    rereadMembers members = members.map fun e => (e.1, e.2.reread) := by
  induction members with
  | nil => rfl
  | cons member members ih => rw [rereadMembers, ih, List.map_cons]

/-- Members with different names stay as they are when they are merged. -/
theorem mergedMembers_nodup {before members : List (String × Json)}
    (new : ((before ++ members).map Prod.fst).Nodup) :
    mergedMembers before members = before ++ members.map fun e => (e.1, e.2.merged) := by
  induction members generalizing before with
  | nil => simp [mergedMembers]
  | cons member members ih =>
    obtain ⟨name, doc⟩ := member
    have absent : name ∉ before.map Prod.fst := by
      intro early
      rw [List.map_append, List.nodup_append] at new
      exact new.2.2 name early name (by simp) rfl
    rw [mergedMembers, Ordered.place_absent _ absent, ih (by simpa using new)]
    simp

end LiveTable.Json
