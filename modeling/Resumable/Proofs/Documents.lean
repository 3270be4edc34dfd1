import Resumable.Proofs.Scanning

namespace Resumable.Json

mutual

def tokens : Json → List Token
  | null => [.null]
  | bool b => [.bool b]
  | number digits => [.number digits]
  | text codes => [.text codes]
  | array [] => [.openArray, .closeArray]
  | array (item :: items) =>
    .openArray :: (item.tokens ++ (tokensOfItems items ++ [.closeArray]))
  | object [] => [.openObject, .closeObject]
  | object ((key, value) :: members) =>
    .openObject :: .text key :: .colon ::
      (value.tokens ++ (tokensOfMembers members ++ [.closeObject]))

def tokensOfItems : List Json → List Token
  | [] => []
  | item :: items => .comma :: (item.tokens ++ tokensOfItems items)

def tokensOfMembers : List (CodePoints × Json) → List Token
  | [] => []
  | (key, value) :: members =>
    .comma :: .text key :: .colon :: (value.tokens ++ tokensOfMembers members)

end

section Scanning

open Token

variable {depth : Nat} {items : List Json} {members : List (CodePoints × Json)}
  {rest : List Char} {ts : List Token}

theorem completes_punctuation {c : Char} {t : Token} {cs : List Char}
    (start : ∀ done, Scan.start ⟨done, .nothing⟩ c = some ⟨t :: done, .nothing⟩)
    (completes : Completes cs ts) : Completes (c :: cs) (t :: ts) := by
  have one : Completes [c] [t] := fun done => by simp [Scan.feed, start]
  exact one.append completes

theorem delimited_items (delimited : Delimited rest) :
    Delimited (printItems depth items ++ rest) := by
  cases items with
  | nil => exact delimited
  | cons item items =>
    rw [printItems]
    exact ⟨',', _, rfl, rfl, rfl⟩

theorem delimited_members (delimited : Delimited rest) :
    Delimited (printMembers depth members ++ rest) := by
  cases members with
  | nil => exact delimited
  | cons member members =>
    rw [printMembers]
    exact ⟨',', _, rfl, rfl, rfl⟩

theorem completes_items (all : ∀ item ∈ items, Reads (item.print depth) item.tokens)
    (completes : Completes rest ts) (delimited : Delimited rest) :
    Completes (printItems depth items ++ rest) (tokensOfItems items ++ ts) := by
  induction items with
  | nil => exact completes
  | cons item items ih =>
    have first := all item (List.mem_cons_self ..)
    have others := ih fun other mem => all other (List.mem_cons_of_mem _ mem)
    have after := first.append others (delimited_items delimited)
    have line := (completes_newline depth).append after
    simpa [printItems, tokensOfItems] using completes_punctuation (fun _ => rfl) line

theorem completes_member {key : CodePoints} {value : Json} (plain : key.Plain)
    (read : Reads (value.print depth) value.tokens) (completes : Completes rest ts)
    (delimited : Delimited rest) :
    Completes (newline depth ++ key.print ++ [':', ' '] ++ value.print depth ++ rest)
      (.text key :: .colon :: (value.tokens ++ ts)) := by
  have after := read.append completes delimited
  have colon := completes_punctuation (c := ':') (t := .colon) (fun _ => rfl)
    ((completes_blanks 1).append after)
  simpa using (completes_newline depth).append ((completes_text plain).append colon)

theorem completes_members (keys : ∀ member ∈ members, member.1.Plain)
    (values : ∀ member ∈ members, Reads (member.2.print depth) member.2.tokens)
    (completes : Completes rest ts) (delimited : Delimited rest) :
    Completes (printMembers depth members ++ rest) (tokensOfMembers members ++ ts) := by
  induction members with
  | nil => exact completes
  | cons member members ih =>
    have first := values member (List.mem_cons_self ..)
    have others := ih (fun other mem => keys other (List.mem_cons_of_mem _ mem))
      fun other mem => values other (List.mem_cons_of_mem _ mem)
    have whole := completes_member (keys member (List.mem_cons_self ..)) first others
      (delimited_members delimited)
    simpa [printMembers, tokensOfMembers] using completes_punctuation (fun _ => rfl) whole

theorem completes_closing {c : Char} {t : Token}
    (start : ∀ done, Scan.start ⟨done, .nothing⟩ c = some ⟨t :: done, .nothing⟩) :
    Completes (newline depth ++ [c]) [t] :=
  (completes_newline depth).append (completes_punctuation start completes_nil)

/-- However far in a document is written, its text is scanned into its tokens. -/
theorem Proper.scanned {j : Json} (proper : j.Proper) (depth : Nat) :
    Reads (j.print depth) j.tokens := by
  induction proper generalizing depth with
  | null =>
    rw [print]
    exact fun done => ⟨⟨done, .word "null".toList⟩, rfl, rfl⟩
  | bool b =>
    cases b
    · rw [print]
      exact fun done => ⟨⟨done, .word "false".toList⟩, rfl, rfl⟩
    · rw [print]
      exact fun done => ⟨⟨done, .word "true".toList⟩, rfl, rfl⟩
  | number valid =>
    rw [print]
    exact reads_number valid
  | text plain =>
    rw [print]
    exact (completes_text plain).reads
  | @array items all ih =>
    cases items with
    | nil =>
      rw [print]
      exact Completes.reads fun _ => rfl
    | cons item items =>
      have first := ih item (List.mem_cons_self ..) (depth + 1)
      have closing : Completes (newline depth ++ [']']) [.closeArray] :=
        completes_closing fun _ => rfl
      have others := completes_items
        (fun other mem => ih other (List.mem_cons_of_mem _ mem) (depth + 1)) closing
        (delimited_newline depth)
      have after := first.append others (delimited_items (delimited_newline depth))
      have line := (completes_newline (depth + 1)).append after
      simpa [print, tokens] using (completes_punctuation (fun _ => rfl) line).reads
  | @object members keys distinct values ih =>
    cases members with
    | nil =>
      rw [print]
      exact Completes.reads fun _ => rfl
    | cons member members =>
      have first := ih member (List.mem_cons_self ..) (depth + 1)
      have closing : Completes (newline depth ++ ['\x7d']) [.closeObject] :=
        completes_closing fun _ => rfl
      have others := completes_members
        (fun other mem => keys other (List.mem_cons_of_mem _ mem))
        (fun other mem => ih other (List.mem_cons_of_mem _ mem) (depth + 1)) closing
        (delimited_newline depth)
      have whole := completes_member (keys member (List.mem_cons_self ..)) first others
        (delimited_members (delimited_newline depth))
      simpa [print, tokens] using (completes_punctuation (fun _ => rfl) whole).reads

end Scanning

section Reading

variable (outer : List Level) {items : List Json} {members : List (CodePoints × Json)}

theorem take_firstItem (j : Json) :
    j.tokens.foldlM Reader.take (.firstItem outer) =
      j.tokens.foldlM Reader.take (.value (.array [] :: outer)) := by
  cases j with
  | array items => cases items <;> rfl
  | object members => cases members <;> rfl
  | _ => rfl

theorem read_items (done : List Json)
    (all : ∀ item ∈ items, ∀ outer,
      item.tokens.foldlM Reader.take (.value outer) = some (Reader.give item outer)) :
    (tokensOfItems items ++ [Token.closeArray]).foldlM Reader.take (.afterItem done outer) =
      some (Reader.give (.array (done ++ items)) outer) := by
  induction items generalizing done with
  | nil => simp [tokensOfItems, Reader.take]
  | cons item items ih =>
    have others := ih (done ++ [item]) fun other mem => all other (List.mem_cons_of_mem _ mem)
    simpa [tokensOfItems, Reader.take, Reader.give, all item (List.mem_cons_self ..)] using others

theorem read_members (before : List (CodePoints × Json))
    (all : ∀ member ∈ members, ∀ outer,
      member.2.tokens.foldlM Reader.take (.value outer) = some (Reader.give member.2 outer)) :
    (tokensOfMembers members ++ [Token.closeObject]).foldlM Reader.take
        (.afterMember before outer) =
      some (Reader.give (.object (before ++ members)) outer) := by
  induction members generalizing before with
  | nil => simp [tokensOfMembers, Reader.take]
  | cons member members ih =>
    have others := ih (before ++ [member]) fun other mem =>
      all other (List.mem_cons_of_mem _ mem)
    simpa [tokensOfMembers, Reader.take, Reader.give, all member (List.mem_cons_self ..)]
      using others

theorem Proper.taken {j : Json} (proper : j.Proper) :
    j.tokens.foldlM Reader.take (.value outer) = some (Reader.give j outer) := by
  induction proper generalizing outer with
  | @array items all ih =>
    cases items with
    | nil => rfl
    | cons item items =>
      have others := read_items outer [item] fun other mem =>
        ih other (List.mem_cons_of_mem _ mem)
      have first := ih item (List.mem_cons_self ..) (.array [] :: outer)
      simpa [tokens, Reader.take, Reader.takeValue, take_firstItem, first, Reader.give]
        using others
  | @object members keys distinct values ih =>
    cases members with
    | nil => rfl
    | cons member members =>
      have others := read_members outer [member] fun other mem =>
        ih other (List.mem_cons_of_mem _ mem)
      have first := ih member (List.mem_cons_self ..) (.object [] member.1 :: outer)
      simpa [tokens, Reader.take, Reader.takeValue, first, Reader.give] using others
  | _ => rfl

end Reading

/-- The text of a document is read as the document. -/
theorem Proper.read_back {j : Json} (proper : j.Proper) : ofString? j.pretty = some j := by
  obtain ⟨s, scanned, settled⟩ := proper.scanned 0 []
  have chars : Token.ofChars? (j.print 0) = some j.tokens := by
    simp [Token.ofChars?, scanned, settled]
  have read := proper.taken []
  simp [ofString?, pretty, chars, ofTokens?, read, Reader.give, Reader.document?]

end Resumable.Json
