import MetadataClient.Collection
import MetadataClient.Connection
import MetadataClient.DocumentStore.Cursor

/-! A listing goes once through the collections of a store. It holds a connection until
it is freed. -/
namespace MetadataClient

/-- A listing that has failed came upon a row that could not be read, which ends it. -/
structure Listing where
  store : Store
  cursor : Cursor
  loan : Loan Connection
  failed : Bool

namespace Listing

structure Step where
  found : Bool
  listing : Listing
  warnings : List String

def advance (listing : Listing) : Step :=
  if listing.failed then ⟨false, listing, []⟩
  else match listing.cursor.advance with
    | (.ok found, cursor) => ⟨found, { listing with cursor }, []⟩
    | (.error error, cursor) =>
      ⟨false, { listing with cursor, failed := true },
        ["Cursor on " ++ cursor.source ++ " failed after " ++ toString cursor.returned
          ++ " entries: " ++ error.message]⟩

def current (listing : Listing) : Except Error Collection :=
  match listing.cursor.current with
  | some document => Collection.ofDocument listing.store document
  | none => .error .noCurrentEntry

theorem remaining_advance_lt {listing next : Listing} {warnings : List String}
    (moved : listing.advance = ⟨true, next, warnings⟩) :
    next.cursor.remaining < listing.cursor.remaining := by
  unfold advance at moved
  split at moved
  · simp at moved
  · split at moved
    next answer after stepped =>
      simp only [Step.mk.injEq] at moved
      obtain ⟨rfl, rfl, -⟩ := moved
      exact Cursor.remaining_advance_lt stepped
    · simp at moved

set_option linter.unusedVariables false in
/-- Steps to the end: the collections, with those that are malformed as errors. -/
def collect (listing : Listing) : List (Except Error Collection) × List String :=
  match moved : listing.advance with
  | ⟨false, _, warnings⟩ => ([], warnings)
  | ⟨true, next, _⟩ =>
    let (rest, warnings) := next.collect
    (next.current :: rest, warnings)
termination_by listing.cursor.remaining
decreasing_by exact remaining_advance_lt moved

def description (listing : Listing) : String :=
  "StoreIterator \x7b store: " ++ Text.quoted listing.store.name ++ ", cursor: "
    ++ listing.cursor.description ++ ", connection: " ++ listing.loan.description
    ++ ", failed: " ++ toString listing.failed ++ " \x7d"

end Listing
end MetadataClient
