import LiveTable.Json.Reader
import Mathlib.Tactic.SplitIfs

/-!
# Documents as they are written

A text writes a document token by token, and an object may repeat a name there. Reading a text merges the
members of one name: the first keeps the place, the last gives the value. The texts that are read are exactly
those that write a document of bounded depth, and what is read is the merged document.
-/

namespace LiveTable.Json

mutual

/-- The tokens that write a document. -/
def tokens : Json → List Token
  | .string s => [.string s]
  | .array items => .openArray :: (itemTokens items ++ [.closeArray])
  | .object members => .openObject :: (memberTokens members ++ [.closeObject])
  | atom => [.scalar atom]

/-- The tokens of items, with commas between them. -/
def itemTokens : List Json → List Token
  | [] => []
  | [item] => tokens item
  | item :: next :: rest => tokens item ++ .comma :: itemTokens (next :: rest)

/-- The tokens of members, with commas between them. -/
def memberTokens : List (String × Json) → List Token
  | [] => []
  | [(name, item)] => .string name :: .colon :: tokens item
  | (name, item) :: next :: rest =>
    .string name :: .colon :: (tokens item ++ .comma :: memberTokens (next :: rest))

end

mutual

/-- The document with one member for each name of an object. -/
def merged : Json → Json
  | .array items => .array (mergedItems items)
  | .object members => .object (mergedMembers [] members)
  | atom => atom

def mergedItems : List Json → List Json
  | [] => []
  | item :: rest => merged item :: mergedItems rest

/-- Members placed one after the other behind those that are there. -/
def mergedMembers (before : List (String × Json)) : List (String × Json) → List (String × Json)
  | [] => before
  | (name, item) :: rest => mergedMembers (Ordered.place name (merged item) before) rest

end

mutual

/-- How many arrays and objects stand inside each other. -/
def depth : Json → Nat
  | .array items => itemsDepth items + 1
  | .object members => membersDepth members + 1
  | _ => 0

def itemsDepth : List Json → Nat
  | [] => 0
  | item :: rest => max (depth item) (itemsDepth rest)

def membersDepth : List (String × Json) → Nat
  | [] => 0
  | (_, item) :: rest => max (depth item) (membersDepth rest)

end

/-- The text writes the document: its tokens are those of the document, whatever space is between them. -/
def Spelled (text : String) (doc : Json) : Prop := tokensFrom .between text.toList = some doc.tokens

/-- Null, a truth value or a number. -/
def isAtom : Json → Bool
  | .null | .bool _ | .integer _ | .real _ => true
  | _ => false

/-- A token that holds a document holds an atom. -/
def Token.Proper (t : Token) : Prop := ∀ j, t = .scalar j → j.isAtom = true

variable {doc : Json} {stack : List Container} {rest ts : List Token} {final : Reading} {t : Token}

/-! ## Scanned tokens -/

theorem proper_of_start {c : Char} {found : List Token} {next : Scan} (begins : start c = some (found, next)) :
    ∀ t ∈ found, t.Proper := by
  unfold start at begins
  split_ifs at begins <;> cases begins <;> simp [Token.Proper]

theorem proper_wordToken {seen : List Char} (word : wordToken seen = some t) : t.Proper := by
  unfold wordToken at word
  rintro j rfl
  split at word <;> cases word <;> rfl

theorem proper_numberToken {seen : List Char} (number : numberToken seen = some t) : t.Proper := by
  unfold numberToken at number
  simp only [Option.bind_eq_bind, Option.bind_eq_some_iff] at number
  obtain ⟨written, -, value, valued, same⟩ := number
  cases same
  rintro j ⟨⟩
  have real {x : Option Binary64} (made : x.map Json.real = some value) : value.isAtom = true := by
    obtain ⟨x, -, rfl⟩ := Option.map_eq_some_iff.mp made
    rfl
  unfold NumberText.value? at valued
  simp only at valued
  split at valued
  · split at valued
    · split at valued
      · cases valued
        rfl
      · exact real valued
    · split at valued
      · cases valued
        rfl
      · exact real valued
  · exact real valued

/-- A word or a number ends where something else begins. -/
theorem proper_ended {token? : Option Token} {c : Char} {found : List Token} {next : Scan}
    (own : ∀ t, token? = some t → t.Proper)
    (ends : (do
      let token ← token?
      let (tokens, next) ← start c
      some (token :: tokens, next)) = some (found, next)) : ∀ t ∈ found, t.Proper := by
  simp only [Option.bind_eq_bind, Option.bind_eq_some_iff] at ends
  obtain ⟨token, here, ⟨others, next⟩, begins, same⟩ := ends
  cases same
  exact List.forall_mem_cons.mpr ⟨own token here, proper_of_start begins⟩

theorem proper_scan {state next : Scan} {c : Char} {found : List Token}
    (scans : scan state c = some (found, next)) : ∀ t ∈ found, t.Proper := by
  cases state with
  | between => exact proper_of_start scans
  | word seen =>
    simp only [scan] at scans
    split at scans
    · cases scans
      simp
    · exact proper_ended (fun t => proper_wordToken) scans
  | number seen =>
    simp only [scan] at scans
    split at scans
    · cases scans
      simp
    · exact proper_ended (fun t => proper_numberToken) scans
  | quoted seen =>
    simp only [scan] at scans
    split_ifs at scans <;> cases scans <;> simp [Token.Proper]
  | backslash seen =>
    simp only [scan] at scans
    split at scans
    · cases scans
      simp
    · obtain ⟨escaped, -, same⟩ := Option.bind_eq_some_iff.mp scans
      cases same
      simp
  | code seen high due value =>
    simp only [scan, Option.bind_eq_bind, Option.bind_eq_some_iff] at scans
    obtain ⟨digit, -, scans⟩ := scans
    split at scans
    · obtain ⟨after, -, same⟩ := Option.bind_eq_some_iff.mp scans
      cases same
      simp
    · cases scans
      simp
  | halfway seen high =>
    simp only [scan] at scans
    split_ifs at scans
    cases scans
    simp
  | halfwayBackslash seen high =>
    simp only [scan] at scans
    split_ifs at scans
    cases scans
    simp

theorem proper_tokensFrom {state : Scan} {cs : List Char} (scans : tokensFrom state cs = some ts) :
    ∀ t ∈ ts, t.Proper := by
  induction cs generalizing state ts with
  | nil =>
    cases state with
    | between =>
      cases scans
      simp
    | word seen =>
      obtain ⟨t, word, rfl⟩ := Option.map_eq_some_iff.mp scans
      simpa using proper_wordToken word
    | number seen =>
      obtain ⟨t, number, rfl⟩ := Option.map_eq_some_iff.mp scans
      simpa using proper_numberToken number
    | _ => cases scans
  | cons c rest ih =>
    simp only [tokensFrom, Option.bind_eq_bind, Option.bind_eq_some_iff] at scans
    obtain ⟨⟨found, next⟩, here, later, scanned, same⟩ := scans
    cases same
    intro t member
    rcases List.mem_append.mp member with first | last
    · exact proper_scan here t first
    · exact ih scanned t last

/-! ## Documents are read -/

theorem fold_step {state next : Reading} (reads : readToken state t = some next) :
    (t :: rest).foldlM readToken state = rest.foldlM readToken next := by
  rw [List.foldlM_cons, reads]
  rfl

/-- The first token of a document is no bracket that closes, so at the front of an array it is read as the
first item. -/
theorem fold_firstItem (doc : Json) (rest : List Token) :
    (doc.tokens ++ rest).foldlM readToken (.firstItem stack) =
      (doc.tokens ++ rest).foldlM readToken (.value (.array [] :: stack)) := by
  cases doc <;> rfl

theorem itemTokens_cons (doc : Json) (docs : List Json) :
    ∃ more, itemTokens (doc :: docs) = doc.tokens ++ more := by
  cases docs with
  | nil => exact ⟨[], by rw [itemTokens, List.append_nil]⟩
  | cons next others => exact ⟨_, by rw [itemTokens]⟩

/-- An atom is read at once. -/
theorem read_atom (doc : Json) (written : ∃ t, doc.tokens = [t] ∧ readToken (.value stack) t = some (.after doc stack))
    (flat : doc.merged = doc ∧ doc.depth = 0) (open' : stack.length ≤ maxDepth) :
    (doc.tokens ++ rest).foldlM readToken (.value stack) = some final ↔
      stack.length + doc.depth ≤ maxDepth ∧ rest.foldlM readToken (.after doc.merged stack) = some final := by
  obtain ⟨t, shape, reads⟩ := written
  rw [shape, List.singleton_append, fold_step reads, flat.1, flat.2]
  exact ⟨fun read => ⟨open', read⟩, fun read => read.2⟩

mutual

theorem read_tokens (doc : Json) (stack : List Container) (rest : List Token) (open' : stack.length ≤ maxDepth) :
    (doc.tokens ++ rest).foldlM readToken (.value stack) = some final ↔
      stack.length + doc.depth ≤ maxDepth ∧ rest.foldlM readToken (.after doc.merged stack) = some final := by
  cases doc with
  | array items =>
    rw [tokens, depth, merged, List.cons_append, List.append_assoc, List.singleton_append]
    by_cases room : stack.length < maxDepth
    · have opens : readToken (.value stack) .openArray = some (.firstItem stack) := if_pos room
      rw [fold_step opens]
      cases items with
      | nil =>
        have closes : readToken (.firstItem stack) .closeArray = some (.after (.array []) stack) := rfl
        rw [itemTokens, List.nil_append, fold_step closes]
        exact ⟨fun read => ⟨room, read⟩, fun read => read.2⟩
      | cons first others =>
        obtain ⟨more, shape⟩ := itemTokens_cons first others
        have items := read_items first others [] stack rest room
        rw [shape, List.append_assoc] at items ⊢
        rw [fold_firstItem, items]
        rfl
    · have full : readToken (.value stack) .openArray = none := if_neg room
      rw [List.foldlM_cons, full]
      exact ⟨nofun, fun read => absurd read.1 (by omega)⟩
  | object members =>
    rw [tokens, depth, merged, List.cons_append, List.append_assoc, List.singleton_append]
    by_cases room : stack.length < maxDepth
    · have opens : readToken (.value stack) .openObject = some (.firstName stack) := if_pos room
      rw [fold_step opens]
      cases members with
      | nil =>
        have closes : readToken (.firstName stack) .closeObject = some (.after (.object []) stack) := rfl
        rw [memberTokens, List.nil_append, fold_step closes]
        exact ⟨fun read => ⟨room, read⟩, fun read => read.2⟩
      | cons first others =>
        obtain ⟨name, item⟩ := first
        have members := read_members name item others [] stack rest room
        rw [← members]
        cases others <;> rfl
    · have full : readToken (.value stack) .openObject = none := if_neg room
      rw [List.foldlM_cons, full]
      exact ⟨nofun, fun read => absurd read.1 (by omega)⟩
  | _ => exact read_atom _ ⟨_, rfl, rfl⟩ ⟨rfl, rfl⟩ open'
  termination_by sizeOf doc

theorem read_items (doc : Json) (docs items : List Json) (stack : List Container) (rest : List Token)
    (room : stack.length < maxDepth) :
    (itemTokens (doc :: docs) ++ .closeArray :: rest).foldlM readToken (.value (.array items :: stack)) =
        some final ↔
      stack.length + (itemsDepth (doc :: docs) + 1) ≤ maxDepth ∧
        rest.foldlM readToken (.after (.array (items.reverse ++ mergedItems (doc :: docs))) stack) = some final := by
  cases docs with
  | nil =>
    rw [itemTokens, read_tokens doc (.array items :: stack) _ room, fold_step rfl]
    simp only [itemsDepth, mergedItems, List.length_cons, List.reverse_cons, Nat.max_zero]
    rw [Nat.add_right_comm, Nat.add_assoc]
  | cons next others =>
    rw [itemTokens, List.append_assoc, List.cons_append, read_tokens doc (.array items :: stack) _ room, fold_step rfl,
      read_items next others _ _ _ room]
    simp only [itemsDepth, mergedItems, List.length_cons, List.reverse_cons, List.append_assoc,
      List.singleton_append, ← and_assoc]
    refine and_congr_left fun _ => ?_
    omega
  termination_by sizeOf doc + sizeOf docs

theorem read_members (name : String) (doc : Json) (docs members : List (String × Json))
    (stack : List Container) (rest : List Token) (room : stack.length < maxDepth) :
    (memberTokens ((name, doc) :: docs) ++ .closeObject :: rest).foldlM readToken (.name members stack) =
        some final ↔
      stack.length + (membersDepth ((name, doc) :: docs) + 1) ≤ maxDepth ∧
        rest.foldlM readToken (.after (.object (mergedMembers members ((name, doc) :: docs))) stack) =
          some final := by
  cases docs with
  | nil =>
    rw [memberTokens, List.cons_append, List.cons_append, fold_step rfl, fold_step rfl,
      read_tokens doc (.object members name :: stack) _ room, fold_step rfl]
    simp only [membersDepth, mergedMembers, List.length_cons, Nat.max_zero]
    rw [Nat.add_right_comm, Nat.add_assoc]
  | cons next others =>
    obtain ⟨name', doc'⟩ := next
    rw [memberTokens, List.cons_append, List.cons_append, List.append_assoc, List.cons_append, fold_step rfl,
      fold_step rfl, read_tokens doc (.object members name :: stack) _ room, fold_step rfl, read_members name' doc' others _ _ _ room]
    simp only [membersDepth, mergedMembers, List.length_cons, ← and_assoc]
    refine and_congr_left fun _ => ?_
    omega
  termination_by sizeOf doc + sizeOf docs

end

/-! ## What is read is a document -/

/-- The tokens of items with a comma after each. -/
def itemFront (docs : List Json) : List Token := docs.flatMap fun doc => doc.tokens ++ [.comma]

/-- The tokens of members with a comma after each. -/
def memberFront (members : List (String × Json)) : List Token :=
  members.flatMap fun (name, doc) => .string name :: .colon :: (doc.tokens ++ [.comma])

theorem itemTokens_concat (docs : List Json) (doc : Json) :
    itemTokens (docs ++ [doc]) = itemFront docs ++ doc.tokens := by
  induction docs with
  | nil => rw [List.nil_append, itemTokens, itemFront, List.flatMap_nil, List.nil_append]
  | cons first rest ih =>
    have shape : itemTokens (first :: rest ++ [doc]) = first.tokens ++ .comma :: itemTokens (rest ++ [doc]) := by
      cases rest <;> simp [itemTokens]
    rw [shape, ih, itemFront, itemFront, List.flatMap_cons]
    simp only [List.append_assoc, List.cons_append, List.nil_append]

theorem memberTokens_concat (members : List (String × Json)) (name : String) (doc : Json) :
    memberTokens (members ++ [(name, doc)]) = memberFront members ++ .string name :: .colon :: doc.tokens := by
  induction members with
  | nil => rw [List.nil_append, memberTokens, memberFront, List.flatMap_nil, List.nil_append]
  | cons first rest ih =>
    have shape : memberTokens (first :: rest ++ [(name, doc)]) = .string first.1 :: .colon ::
        (first.2.tokens ++ .comma :: memberTokens (rest ++ [(name, doc)])) := by
      cases rest <;> simp [memberTokens]
    rw [shape, ih, memberFront, memberFront, List.flatMap_cons]
    simp only [List.append_assoc, List.cons_append, List.nil_append]

theorem mergedItems_eq_map (docs : List Json) : mergedItems docs = docs.map merged := by
  induction docs with
  | nil => rfl
  | cons doc rest ih => rw [mergedItems, ih, List.map_cons]

theorem mergedMembers_append (before members more : List (String × Json)) :
    mergedMembers before (members ++ more) = mergedMembers (mergedMembers before members) more := by
  induction members generalizing before with
  | nil => rfl
  | cons first rest ih => rw [List.cons_append, mergedMembers, mergedMembers, ih]

/-- The tokens after which a value is due, with the arrays and objects that they leave open. -/
inductive Opened : List Token → List Container → Prop
  | nil : Opened [] []
  | array {ts : List Token} {stack : List Container} (docs : List Json) (opened : Opened ts stack) :
    Opened (ts ++ .openArray :: itemFront docs) (.array (mergedItems docs).reverse :: stack)
  | object {ts : List Token} {stack : List Container} (members : List (String × Json)) (name : String)
    (opened : Opened ts stack) :
    Opened (ts ++ .openObject :: (memberFront members ++ [.string name, .colon]))
      (.object (mergedMembers [] members) name :: stack)

/-- The tokens behind which the second pass stands. -/
inductive Reached : List Token → Reading → Prop
  | value {ts : List Token} {stack : List Container} (opened : Opened ts stack) : Reached ts (.value stack)
  | firstItem {ts : List Token} {stack : List Container} (opened : Opened ts stack) :
    Reached (ts ++ [.openArray]) (.firstItem stack)
  | firstName {ts : List Token} {stack : List Container} (opened : Opened ts stack) :
    Reached (ts ++ [.openObject]) (.firstName stack)
  | name {ts : List Token} {stack : List Container} (members : List (String × Json))
    (opened : Opened ts stack) :
    Reached (ts ++ .openObject :: memberFront members) (.name (mergedMembers [] members) stack)
  | colon {ts : List Token} {stack : List Container} (members : List (String × Json)) (name : String)
    (opened : Opened ts stack) :
    Reached (ts ++ .openObject :: (memberFront members ++ [.string name]))
      (.colon (mergedMembers [] members) name stack)
  | after {ts : List Token} {stack : List Container} (doc : Json) (opened : Opened ts stack) :
    Reached (ts ++ doc.tokens) (.after doc.merged stack)

theorem atom_tokens {j : Json} (atom : j.isAtom = true) : j.tokens = [.scalar j] ∧ j.merged = j := by
  cases j with
  | null => exact ⟨rfl, rfl⟩
  | bool b => exact ⟨rfl, rfl⟩
  | integer n => exact ⟨rfl, rfl⟩
  | real x => exact ⟨rfl, rfl⟩
  | _ => cases atom

theorem Opened.readValue {next : Reading} (opened : Opened ts stack) (proper : t.Proper)
    (reads : readValue stack t = some next) : Reached (ts ++ [t]) next := by
  cases t with
  | scalar j =>
    cases reads
    obtain ⟨written, flat⟩ := atom_tokens (proper j rfl)
    have after := Reached.after j opened
    rwa [written, flat] at after
  | string s =>
    cases reads
    exact .after (.string s) opened
  | openArray =>
    simp only [Json.readValue] at reads
    split at reads
    · cases reads
      exact .firstItem opened
    · cases reads
  | openObject =>
    simp only [Json.readValue] at reads
    split at reads
    · cases reads
      exact .firstName opened
    · cases reads
  | _ => cases reads

/-- A value that is complete inside of what is open. -/
theorem Reached.step_after {next : Reading} (opened : Opened ts stack) (doc : Json)
    (reads : readToken (.after doc.merged stack) t = some next) : Reached (ts ++ doc.tokens ++ [t]) next := by
  cases opened with
  | nil => cases t <;> cases reads
  | array docs opened =>
    cases t with
    | comma =>
      cases reads
      have more := Reached.value (.array (docs ++ [doc]) opened)
      simpa [itemFront, mergedItems_eq_map] using more
    | closeArray =>
      cases reads
      have closed := Reached.after (.array (docs ++ [doc])) opened
      rw [tokens, itemTokens_concat] at closed
      simpa [merged, mergedItems_eq_map] using closed
    | _ => cases reads
  | object members name opened =>
    cases t with
    | comma =>
      cases reads
      have more := Reached.name (members ++ [(name, doc)]) opened
      simpa [memberFront, mergedMembers_append, mergedMembers] using more
    | closeObject =>
      cases reads
      have closed := Reached.after (.object (members ++ [(name, doc)])) opened
      rw [tokens, memberTokens_concat] at closed
      simpa [merged, mergedMembers_append, mergedMembers] using closed
    | _ => cases reads

theorem Reached.step {state next : Reading} (reached : Reached ts state) (proper : t.Proper)
    (reads : readToken state t = some next) : Reached (ts ++ [t]) next := by
  cases reached with
  | value opened => exact opened.readValue proper reads
  | @firstItem _ stack opened =>
    by_cases closes : t = .closeArray
    · subst closes
      cases reads
      simpa [tokens, itemTokens, merged, mergedItems] using Reached.after (.array []) opened
    · have inside : Json.readValue (.array [] :: stack) t = some next := by
        cases t <;> first | exact reads | exact absurd rfl closes
      have first := (Opened.array [] opened).readValue proper inside
      simpa [itemFront] using first
  | firstName opened =>
    cases t with
    | closeObject =>
      cases reads
      simpa [tokens, memberTokens, merged, mergedMembers] using Reached.after (.object []) opened
    | string s =>
      cases reads
      simpa [memberFront, mergedMembers] using Reached.colon [] s opened
    | _ => cases reads
  | name members opened =>
    cases t with
    | string s =>
      cases reads
      simpa using Reached.colon members s opened
    | _ => cases reads
  | colon members name opened =>
    cases t with
    | colon =>
      cases reads
      simpa using Reached.value (.object members name opened)
    | _ => cases reads
  | after doc opened => exact .step_after opened doc reads

theorem Reached.run {state : Reading} (reached : Reached ts state) (proper : ∀ t ∈ rest, t.Proper)
    (reads : rest.foldlM readToken state = some final) : Reached (ts ++ rest) final := by
  induction rest generalizing ts state with
  | nil =>
    cases reads
    simpa using reached
  | cons t rest ih =>
    rw [List.foldlM_cons, Option.bind_eq_bind, Option.bind_eq_some_iff] at reads
    obtain ⟨next, first, later⟩ := reads
    obtain ⟨own, others⟩ := List.forall_mem_cons.mp proper
    have whole := ih (reached.step own first) others later
    rwa [List.append_assoc, List.singleton_append] at whole

/-- Tokens behind which nothing is open and a value is complete are those of a document. -/
theorem Reached.whole {j : Json} (reached : Reached ts (.after j [])) :
    ∃ doc : Json, ts = doc.tokens ∧ j = doc.merged := by
  cases reached with
  | after doc opened =>
    cases opened
    exact ⟨doc, rfl, rfl⟩

theorem fold_tokens (doc : Json) (final : Reading) : doc.tokens.foldlM readToken (.value []) = some final ↔
    doc.depth ≤ maxDepth ∧ .after doc.merged [] = final := by
  have reads := @read_tokens final doc [] [] (Nat.zero_le _)
  simpa using reads

/-- Reading a text yields the merged document that the text writes, and a text can be read exactly if it
writes a document whose depth is not too great. -/
theorem read?_eq_some_iff {text : String} {j : Json} :
    read? text = some j ↔ ∃ doc, Spelled text doc ∧ doc.depth ≤ maxDepth ∧ j = doc.merged := by
  constructor
  · intro reads
    simp only [read?, Option.bind_eq_bind, Option.bind_eq_some_iff] at reads
    obtain ⟨ts, scanned, final, folded, ends⟩ := reads
    split at ends
    · cases ends
      have reached := (Reached.value .nil).run (proper_tokensFrom scanned) folded
      obtain ⟨doc, rfl, rfl⟩ := reached.whole
      exact ⟨doc, scanned, ((fold_tokens doc _).mp folded).1, rfl⟩
    · cases ends
  · rintro ⟨doc, spelled, shallow, rfl⟩
    simp only [read?, Option.bind_eq_bind, Option.bind_eq_some_iff]
    exact ⟨doc.tokens, spelled, .after doc.merged [], (fold_tokens doc _).mpr ⟨shallow, rfl⟩, rfl⟩

/-- Whatever document a text writes, it is read as that document. -/
theorem merged_of_spelled {text : String} {j : Json} (reads : read? text = some j) (spelled : Spelled text doc) :
    j = doc.merged := by
  obtain ⟨other, spelled', shallow, rfl⟩ := read?_eq_some_iff.mp reads
  have same : other.tokens = doc.tokens := Option.some.inj (spelled'.symm.trans spelled)
  have folded := (fold_tokens other _).mpr ⟨shallow, rfl⟩
  rw [same] at folded
  exact (Reading.after.inj ((fold_tokens doc _).mp folded).2).1.symm

end LiveTable.Json
