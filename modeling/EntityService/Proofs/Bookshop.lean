import EntityService.Store.Related

/-!
# A bookshop

A small model of authors and their books, and a store of rows for it, on which general statements
are tried out.

## Main definitions

* `Bookshop.authors`, `Bookshop.books` — the entities; authors have a secret that is never shown,
  books have an active flag
* `Bookshop.model` — the model of the two
* `Bookshop.store` — two authors with a secret of one's choice, and three books
-/

namespace EntityService.Bookshop

open EntityService.Json EntityService.Model EntityService.Query EntityService.Store

/-- The authors, who have many books. -/
def authors : Entity where
  id := "authors"
  schema := "public"
  table := "authors"
  pathSegment := "authors"
  primaryKey := "id"
  keyType := .bigInt
  createdAt := "created_at"
  updatedAt := "updated_at"
  columns := []
  filterable := .of ["name"] "id" "created_at" "updated_at"
  activeFlag := none
  defaultSort := ⟨"id", "asc"⟩
  relations := [⟨"books", .toMany, "books", "id", "author_id"⟩]
  aggregates := ["books"]
  operations := ["read"]
  sensitive := ["secret"]
  validation := []
  pageSize := 25

/-- The books, each with one author; those that are not active are out of print. -/
def books : Entity where
  id := "books"
  schema := "public"
  table := "books"
  pathSegment := "books"
  primaryKey := "id"
  keyType := .bigInt
  createdAt := "created_at"
  updatedAt := "updated_at"
  columns := []
  filterable := .of ["author_id", "title"] "id" "created_at" "updated_at"
  activeFlag := some ⟨"is_active", .ofInt 1⟩
  defaultSort := ⟨"id", "desc"⟩
  relations := [⟨"author", .toOne, "authors", "author_id", "id"⟩]
  aggregates := []
  operations := ["create", "read", "delete"]
  sensitive := []
  validation := []
  pageSize := 25

/-- The model of authors and books. -/
def model : Model := ⟨[authors, books]⟩

/-- An author's row. -/
def author (id : Int) (name secret : String) : Record :=
  [("id", .ofInt id), ("name", .string name), ("secret", .string secret)]

/-- A book's row. -/
def book (id author : Int) (title : String) : Record :=
  [("author_id", .ofInt author), ("id", .ofInt id), ("is_active", .ofInt 1),
    ("title", .string title)]

/-- Two authors with a secret, and three books. -/
def store (secret : String) : Memory where
  model := model
  tables :=
    [("authors", ⟨[author 1 "North" secret, author 2 "East" secret], 2⟩),
      ("books", ⟨[book 1 1 "Harvest", book 2 1 "Lathe", book 3 2 "Matter"], 3⟩)]
  clock := "2000-01-01T00:00:00+00:00"
  identifiers := fun n => ⟨(Nat.toDigits 16 n).leftpad 32 '0'⟩

end EntityService.Bookshop
