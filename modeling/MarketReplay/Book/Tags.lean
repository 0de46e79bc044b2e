/-
Filling in tags: auctions are opened without the tags of their tokens, and
get them at the end of a replay from a metadata service.

Only auctions without tags are asked about and changed, each token once. An
empty answer is no answer, and of several answers about one token the last
counts.
-/
import MarketReplay.Book
import MarketReplay.Pieces

namespace MarketReplay

namespace Book

variable (book : Book)

/-- The tokens of the auctions without tags, each once, in the order of their
first auction. -/
def untagged : List String :=
  ((book.auctions.filter (·.tags.isEmpty)).map (·.identifier)).eraseDups

/-- The requests that ask for all of them, at most `size` tokens each; a size
of zero counts as one. -/
def tagRequests (size : Nat) : List (List String) :=
  pieces (max size 1) book.untagged

end Book

/-- The tags that some answers give a token. -/
def tagsIn? (answers : List TokenTags) (identifier : String) : Option (List String) :=
  ((answers.filter (!·.tags.isEmpty)).reverse.find? (·.identifier == identifier)).map (·.tags)

/-- The auction with its tags filled in, if it has none and an answer gives
some. -/
def Auction.fillTags (answers : List TokenTags) (auction : Auction) : Auction :=
  if auction.tags.isEmpty then
    match tagsIn? answers auction.identifier with
    | some tags => { auction with tags }
    | none => auction
  else auction

namespace Book

variable (answers : List TokenTags) (book : Book)

/-- The book with the tags filled in that some answers give. -/
def fillTags : Book :=
  { book with auctions := book.auctions.map (·.fillTags answers) }

/-- How many auctions some answers give tags to. -/
def fillable : Nat :=
  book.auctions.countP fun auction =>
    auction.tags.isEmpty && (tagsIn? answers auction.identifier).isSome

end Book

end MarketReplay
