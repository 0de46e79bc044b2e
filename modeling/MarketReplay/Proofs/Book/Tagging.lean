/-
Filling in tags, token by token.

However the tokens without tags are cut into requests, the requests name each
of them once, and no other (`mem_flatten_tagRequests`). And however the
answers come, where they agree with a list of tags for each token
(`Tells`) they fill in these lists: `Book.tagBy` says so of one auction at a
time, by its token. That an auction whose token has no tags is left alone, and
that a second filling changes nothing, can be read off there.
-/
import MarketReplay.Proofs.Book.Lifecycle
import MarketReplay.Proofs.Store.Upserted

namespace MarketReplay

-- ============================================================ the requests

namespace Book

variable {book : Book} {identifier : String} {size : Nat}

/-- A token is asked about if one of its auctions has no tags. -/
theorem mem_untagged : identifier ∈ book.untagged ↔
    ∃ auction ∈ book.auctions,
      auction.tags = [] ∧ auction.identifier = identifier := by
  unfold untagged
  rw [List.mem_eraseDups, List.mem_map]
  simp only [List.mem_filter, List.isEmpty_iff, and_assoc]

theorem flatten_tagRequests (book : Book) (size : Nat) :
    (book.tagRequests size).flatten = book.untagged :=
  flatten_pieces (by omega) book.untagged

/-- The requests name every token that is asked about, and no other. -/
theorem mem_flatten_tagRequests :
    identifier ∈ (book.tagRequests size).flatten ↔
      ∃ auction ∈ book.auctions,
        auction.tags = [] ∧ auction.identifier = identifier := by
  rw [flatten_tagRequests, mem_untagged]

theorem nodup_flatten_tagRequests (book : Book) (size : Nat) :
    (book.tagRequests size).flatten.Nodup := by
  rw [flatten_tagRequests]
  exact nodup_eraseDups _

theorem length_of_mem_tagRequests {request : List String}
    (h : request ∈ book.tagRequests size) :
    0 < request.length ∧ request.length ≤ max size 1 :=
  length_of_mem_pieces h

end Book

-- ============================================================ the answers

/-- Of each of these tokens the answers tell what tags it has, if it has
any. -/
structure Tells (tags : String → List String) (answers : List TokenTags)
    (identifiers : List String) : Prop where
  /-- They tell nothing else of it. -/
  only : ∀ answer ∈ answers, answer.tags = tags answer.identifier
  all : ∀ identifier ∈ identifiers, tags identifier ≠ [] →
    ∃ answer ∈ answers, answer.identifier = identifier

section tagsIn

variable {tags : String → List String} {answers : List TokenTags}
  {identifiers : List String}

/-- Only tags that some answer gives are found. -/
theorem tagsIn?_eq_some {identifier : String} {found : List String}
    (h : tagsIn? answers identifier = some found) :
    ∃ answer ∈ answers,
      answer.identifier = identifier ∧ answer.tags = found := by
  obtain ⟨answer, hanswer, rfl⟩ := Option.map_eq_some_iff.1 h
  have hmem := List.mem_of_find?_eq_some hanswer
  rw [List.mem_reverse, List.mem_filter] at hmem
  have hsame := List.find?_some hanswer
  exact ⟨answer, hmem.1, eq_of_beq hsame, rfl⟩

/-- None are found only where no answer gives any. -/
theorem tagsIn?_eq_none {identifier : String}
    (h : tagsIn? answers identifier = none) {answer : TokenTags}
    (hmem : answer ∈ answers) (hsame : answer.identifier = identifier) :
    answer.tags = [] := by
  rw [tagsIn?, Option.map_eq_none_iff, List.find?_eq_none] at h
  by_cases htags : answer.tags = []
  · exact htags
  · have hkept : answer ∈ (answers.filter (!·.tags.isEmpty)).reverse := by
      rw [List.mem_reverse, List.mem_filter]
      exact ⟨hmem, by simpa using htags⟩
    exact absurd (beq_iff_eq.2 hsame) (h answer hkept)

/-- What the answers tell of a token is what is found in them. -/
theorem Tells.tagsIn? (h : Tells tags answers identifiers)
    {identifier : String} (hmem : identifier ∈ identifiers) :
    tagsIn? answers identifier
      = if tags identifier = [] then none else some (tags identifier) := by
  cases hfound : MarketReplay.tagsIn? answers identifier with
  | some found =>
      have hne := Auction.ne_nil_of_tagsIn? hfound
      obtain ⟨answer, hanswer, rfl, rfl⟩ := tagsIn?_eq_some hfound
      rw [h.only answer hanswer] at hne ⊢
      rw [if_neg hne]
  | none =>
      by_cases htags : tags identifier = []
      · rw [if_pos htags]
      · obtain ⟨answer, hanswer, hsame⟩ := h.all identifier hmem htags
        have hnone := tagsIn?_eq_none hfound hanswer hsame
        rw [h.only answer hanswer, hsame] at hnone
        exact absurd hnone htags

end tagsIn

-- =============================================================== the book

/-- The auction with the tags of its token, if it has none. -/
def Auction.tagBy (tags : String → List String) (auction : Auction) :
    Auction :=
  if auction.tags = [] then { auction with tags := tags auction.identifier }
  else auction

/-- The book with the tags of the tokens in all auctions that have none. -/
def Book.tagBy (tags : String → List String) (book : Book) : Book :=
  { book with auctions := book.auctions.map (·.tagBy tags) }

/-- How many auctions get tags that way. -/
def Book.tagCount (tags : String → List String) (book : Book) : Nat :=
  book.auctions.countP fun auction => auction.tagBy tags ≠ auction

section tagBy

variable {tags : String → List String} {answers : List TokenTags}

/-- An auction changes if it has no tags and its token has some. -/
theorem Auction.tagBy_ne_self_iff {auction : Auction} :
    auction.tagBy tags ≠ auction
      ↔ auction.tags = [] ∧ tags auction.identifier ≠ [] := by
  unfold tagBy
  by_cases hnone : auction.tags = []
  · rw [if_pos hnone]
    constructor
    · intro hne
      refine ⟨hnone, fun hempty => hne ?_⟩
      rw [hempty, ← hnone]
    · rintro ⟨-, hsome⟩ heq
      exact hsome ((congrArg Auction.tags heq).trans hnone)
  · simp [hnone]

/-- A second time there is nothing to fill in. -/
theorem Auction.tagBy_tagBy (auction : Auction) :
    (auction.tagBy tags).tagBy tags = auction.tagBy tags := by
  by_cases hnone : auction.tags = []
  · have hself : auction.tagBy tags
        = { auction with tags := tags auction.identifier } := if_pos hnone
    rw [hself]
    unfold tagBy
    split <;> rfl
  · have hself : auction.tagBy tags = auction := if_neg hnone
    rw [hself, hself]

theorem Book.tagBy_tagBy (tags : String → List String) (book : Book) :
    (book.tagBy tags).tagBy tags = book.tagBy tags
      ∧ (book.tagBy tags).tagCount tags = 0 := by
  constructor
  · unfold tagBy
    simp only [List.map_map, Function.comp_def, Auction.tagBy_tagBy]
  · unfold tagCount
    rw [List.countP_eq_zero]
    intro auction hmem
    obtain ⟨before, -, rfl⟩ := List.mem_map.1 hmem
    simpa using before.tagBy_tagBy

/-- Answers that tell the tags of its token fill them into an auction. -/
theorem Tells.fillTags {auction : Auction} {identifiers : List String}
    (h : Tells tags answers identifiers)
    (hasked : auction.tags = [] → auction.identifier ∈ identifiers) :
    auction.fillTags answers = auction.tagBy tags := by
  unfold Auction.fillTags Auction.tagBy
  by_cases hnone : auction.tags = []
  · rw [if_pos (List.isEmpty_iff.2 hnone), if_pos hnone,
      h.tagsIn? (hasked hnone)]
    by_cases hempty : tags auction.identifier = []
    · rw [if_pos hempty, hempty, ← hnone]
    · rw [if_neg hempty]
  · rw [if_neg (fun hempty => hnone (List.isEmpty_iff.1 hempty)),
      if_neg hnone]

/-- They fill the tags into the book, and are counted where they change it. -/
theorem Tells.fillTags_book {book : Book}
    (h : Tells tags answers book.untagged) :
    book.fillTags answers = book.tagBy tags
      ∧ book.fillable answers = book.tagCount tags := by
  have hasked : ∀ auction ∈ book.auctions, auction.tags = [] →
      auction.identifier ∈ book.untagged :=
    fun auction hmem hnone => Book.mem_untagged.2 ⟨auction, hmem, hnone, rfl⟩
  constructor
  · have hmap : book.auctions.map (·.fillTags answers)
        = book.auctions.map (·.tagBy tags) :=
      List.map_congr_left fun auction hmem => h.fillTags (hasked auction hmem)
    unfold Book.fillTags Book.tagBy
    rw [hmap]
  · unfold Book.fillable Book.tagCount
    refine List.countP_congr fun auction hmem => ?_
    rw [decide_eq_true_eq, Auction.tagBy_ne_self_iff, Bool.and_eq_true,
      List.isEmpty_iff]
    refine and_congr_right fun hnone => ?_
    rw [h.tagsIn? (hasked auction hmem hnone)]
    by_cases hempty : tags auction.identifier = [] <;> simp [hempty]

end tagBy

end MarketReplay
