import EntityService.Proofs.Bookshop
import EntityService.Proofs.Handling

/-!
# Pages make up the list

The pages of a request, put one after the other, are the list that the same request gives without
pages.

## Main definitions

* `pagingKeys` — the keys of parameters that are about pages
* `Request.withParam` — a request with one parameter more
* `Memory.listed`, `Memory.pageOf` — all rows of a plan, and a page of them

## Main results

* `searchPlan_put` — parameters about pages have no part in the plan of a request
* `answer_list`, `answer_page` — the answers with and without pages
* `pages_make_up_list` — the pages make up the list

## Design notes

Both answers come from one plan: what pages add to it is a window on the selected rows.  Parameters
about pages could only enter the plan as filters, which is why no entity whose rows may be filtered
by one of their keys is meant here.
-/

namespace EntityService

open EntityService.Http EntityService.Json EntityService.Model EntityService.Query
open EntityService.Store

/-! ## Parameters about pages -/

/-- The keys of parameters that are about pages. -/
def pagingKeys : List String := ["limit", "page", "paginate"]

/-- The request with one parameter more at the end of its query. -/
def Http.Request.withParam (r : Request) (key value : String) : Request :=
  { r with target := { r.target with query := r.target.query ++ "&" ++ (key ++ "=" ++ value) } }

theorem Http.Request.params_withParam {key value : String} (hkey : IsPlain key)
    (hvalue : IsPlain value) (r : Request) :
    (r.withParam key value).params = r.params.put key value := by
  rw [Request.params, Request.withParam, queryPairs_append hkey hvalue,
    Params.ofList_append_singleton, Request.params]

theorem isDigit_of_mem_toString {n : Nat} {c : Char} (h : c ∈ (toString n).toList) : c.isDigit :=
  Nat.isDigit_of_mem_toDigits (by decide) (by decide) (Nat.toList_repr ▸ h)

theorem isPlain_toString (n : Nat) : IsPlain (toString n) := by
  refine List.all_eq_true.mpr fun c hc => ?_
  rw [Char.isAlphanum, isDigit_of_mem_toString hc, Bool.or_true]

theorem isPlain_of_mem_pagingKeys {key : String} (h : key ∈ pagingKeys) : IsPlain key := by
  simp only [pagingKeys, List.mem_cons, List.not_mem_nil, or_false] at h
  rcases h with rfl | rfl | rfl <;> decide

section Plan

variable {key : String}

/-- A key about pages asks for no clause unless rows may be filtered by it. -/
theorem covers_of_mem_pagingKeys (fields : FieldSet) (hkey : key ∈ pagingKeys) :
    fields.covers key = fields.contains key := by
  refine fields.covers_of_no_suffix ?_
  simp only [pagingKeys, List.mem_cons, List.not_mem_nil, or_false] at hkey
  rcases hkey with rfl | rfl | rfl <;> decide

/-- A parameter about pages has no part in the plan of a request. -/
theorem searchPlan_put {r : Repository} (hkey : key ∈ pagingKeys)
    (hfilterable : ¬r.entity.filterable.contains key) (value : String) :
    (r.withParams (r.params.put key value)).searchPlan = r.searchPlan := by
  -- the directives of a request have other keys
  have hdirectives : key ∉ Repository.loadKeys ∧ key ∉ Repository.countKeys ∧ "sort" ≠ key := by
    simp only [pagingKeys, List.mem_cons, List.not_mem_nil, or_false] at hkey
    rcases hkey with rfl | rfl | rfl <;> decide
  obtain ⟨hload, hcount, hsort⟩ := hdirectives
  have hinclusion :
      (r.withParams (r.params.put key value)).requestedInclusion = r.requestedInclusion := by
    unfold Repository.requestedInclusion Repository.withParams
    dsimp only
    rw [Params.firstOf?_put_of_not_mem _ value hload,
      Params.firstOf?_put_of_not_mem _ value hcount]
  have hsorts : (r.withParams (r.params.put key value)).requestedSorts = r.requestedSorts := by
    unfold Repository.requestedSorts Repository.withParams
    dsimp only
    rw [Params.get?_put_of_ne _ value hsort]
  have hclauses :
      (r.withParams (r.params.put key value)).requestedClauses = r.requestedClauses := by
    unfold Repository.requestedClauses Repository.withParams
    dsimp only
    exact resolveFilters_put (by rwa [covers_of_mem_pagingKeys _ hkey]) r.params value
  unfold Repository.searchPlan Repository.requestPlanOf
  rw [hinclusion, hsorts, hclauses]
  rfl

/-- A parameter that spells a number is read as that number. -/
theorem numberParam?_eq_some {r : Repository} {n : Nat} (h : r.params.get? key = some (toString n))
    (hn : n ≤ Number.maxNatural64) : r.numberParam? key = some n := by
  have htrim : Text.trim (toString n) = toString n := by
    refine Text.trim_of_not_blank fun c hc => ?_
    have hdigit := Char.isDigit_iff_toNat.mp (isDigit_of_mem_toString hc)
    unfold Text.isBlank
    simp at hdigit ⊢
    omega
  rw [Repository.numberParam?, h, Option.bind_some, htrim, Number.readNatural64?_toString hn]

end Plan

/-! ## Parameters that name a page -/

/-- The parameters with the size and the number of a page. -/
def Query.Params.paged (p : Params) (size number : Nat) : Params :=
  (p.put "limit" (toString size)).put "page" (toString number)

theorem Http.Request.params_withParam_page (r : Request) (size number : Nat) :
    ((r.withParam "limit" (toString size)).withParam "page" (toString number)).params =
      r.params.paged size number := by
  rw [Request.params_withParam (isPlain_of_mem_pagingKeys (by decide)) (isPlain_toString number),
    Request.params_withParam (isPlain_of_mem_pagingKeys (by decide)) (isPlain_toString size),
    Params.paged]

section Paged

variable {r : Repository} {size number : Nat}

/-- The parameters of a page do not turn pages off. -/
theorem wantsPages_paged (hnew : r.params.get? "paginate" = none) :
    wantsPages (r.params.paged size number) = true := by
  rw [wantsPages, Params.paged, Params.get?_put_of_ne _ _ (by decide),
    Params.get?_put_of_ne _ _ (by decide), hnew, Option.all_none]

/-- The size of the page is the one that is named. -/
theorem pageSize_paged (hsize : 1 ≤ size) (hmax : size ≤ Number.maxNatural64) :
    let paged := r.withParams (r.params.paged size number)
    paged.pageSizeFor (paged.numberParam? "limit") = size := by
  intro paged
  have hget : paged.params.get? "limit" = some (toString size) :=
    (Params.get?_put_of_ne _ _ (by decide)).trans (Params.get?_put_self _ _ _)
  have hpositive : decide (0 < size) = true := decide_eq_true hsize
  rw [numberParam?_eq_some hget hmax, Repository.pageSizeFor, Option.filter_some,
    if_pos hpositive, Option.getD_some]

/-- The number of the page is the one that is named. -/
theorem pageNumber_paged (hnumber : 1 ≤ number) (hmax : number ≤ Number.maxNatural64) :
    Repository.pageNumberFor ((r.withParams (r.params.paged size number)).numberParam? "page") =
      number := by
  have hget : (r.withParams (r.params.paged size number)).params.get? "page" =
      some (toString number) := Params.get?_put_self _ _ _
  rw [numberParam?_eq_some hget hmax]
  exact Nat.max_eq_left hnumber

/-- The page has no part in the plan. -/
theorem searchPlan_paged (hfilterable : ∀ key ∈ pagingKeys, ¬r.entity.filterable.contains key) :
    (r.withParams (r.params.paged size number)).searchPlan = r.searchPlan :=
  calc (r.withParams (r.params.paged size number)).searchPlan
    -- the number, which came last, is taken away first
    _ = (r.withParams (r.params.put "limit" (toString size))).searchPlan :=
        searchPlan_put (r := r.withParams (r.params.put "limit" (toString size))) (by decide)
          (hfilterable _ (by decide)) _
    _ = r.searchPlan := searchPlan_put (by decide) (hfilterable _ (by decide)) _

end Paged

/-! ## Answers with and without pages -/

namespace Store.Memory

/-- All rows of a plan, without what is never shown. -/
def listed (store : Memory) (p : Plan) : List Value :=
  ((store.selected p).map (store.shown p [])).map (shownRow p.entity)

/-- A page of the rows of a plan by its size and number. -/
def pageOf (store : Memory) (p : Plan) (size number : Nat) : Page Value :=
  Page.of (Page.window size number (store.listed p)) (store.listed p).length size number

/-- What a store gives for a page is a window on all rows. -/
theorem mapRows_window (store : Memory) (p : Plan) (size : Nat) {number : Nat} (h : 1 ≤ number) :
    (Page.of ((Page.window size number (store.selected p)).map (store.shown p []))
        (store.selected p).length size (max number 1)).mapRows (shownRow p.entity) =
      store.pageOf p size number := by
  unfold pageOf listed
  rw [Nat.max_eq_left h, ← Page.map_window, ← Page.map_window, List.length_map, List.length_map]
  rfl

theorem length_listed_le (store : Memory) (p : Plan) :
    (store.listed p).length ≤ (store.rows p.entity.id).length := by
  unfold listed selected selection sortRows
  rw [List.length_map, List.length_map, List.length_mergeSort]
  exact List.length_filter_le _ _

end Store.Memory

section Answers

variable {service : Service} {store : Memory} {e : Entity} {r : Request}

/-- Without pages the answer holds all rows and their count. -/
theorem answer_list (hget : r.method = "GET") (hroute : r.LeadsToRows service.model e)
    (hread : e.allows "read") (hpages : wantsPages r.params = false) :
    (service.answer r store).1 =
      .many 200
        (store.listed ((Repository.of service.model e).withParams r.params).searchPlan) := by
  obtain ⟨segment, hsegment, he⟩ := hroute
  -- no limit has been asked for, so none of the rows are cut off
  have hlimit : ((Repository.of service.model e).withParams r.params).searchPlan.calls.limit? =
      none := limit?_compose _ _ _ _
  rw [answer_of_get hget, orderOf_of_get hget hsegment, carryOut_entity_fst, Command.run,
    listRows_apply he hread, hpages, if_neg Bool.false_ne_true, inSession_all,
    requestPlan_withParams, Action.mapValue_fst, Memory.get_fst, hlimit]
  rfl

/-- With pages the answer is the page that the request names. -/
theorem answer_page (hget : r.method = "GET") (hroute : r.LeadsToRows service.model e)
    (hread : e.allows "read") (hpages : wantsPages r.params = true) {repository : Repository}
    (hrepository : (Repository.of service.model e).withParams r.params = repository) :
    (service.answer r store).1 =
      .page (store.pageOf repository.searchPlan
        (repository.pageSizeFor (repository.numberParam? "limit"))
        (Repository.pageNumberFor (repository.numberParam? "page"))) := by
  subst hrepository
  obtain ⟨segment, hsegment, he⟩ := hroute
  rw [answer_of_get hget, orderOf_of_get hget hsegment, carryOut_entity_fst, Command.run,
    listRows_apply he hread, hpages, if_pos rfl, inSession_search, Action.mapValue_fst,
    Memory.paginate_fst]
  exact congrArg Response.page (store.mapRows_window
    ((Repository.of service.model e).withParams r.params).searchPlan _ (Nat.le_max_right _ _))

variable (hget : r.method = "GET") (hroute : r.LeadsToRows service.model e)
  (hread : e.allows "read") (hfilterable : ∀ key ∈ pagingKeys, ¬e.filterable.contains key)

include hget hroute hread hfilterable

/-- The request that does without pages is answered with all rows. -/
theorem answer_withParam_list :
    (service.answer (r.withParam "paginate" "false") store).1 =
      .many 200
        (store.listed ((Repository.of service.model e).withParams r.params).searchPlan) := by
  let repository := (Repository.of service.model e).withParams r.params
  have hput : (r.withParam "paginate" "false").params = r.params.put "paginate" "false" :=
    Request.params_withParam (isPlain_of_mem_pagingKeys (by decide)) (by decide) r
  have hpages : wantsPages (r.withParam "paginate" "false").params = false := by
    have hlower : "false".map Char.toLower = "false" := by decide +kernel
    rw [hput, wantsPages, Params.get?_put_self, Option.all_some, hlower, bne_self_eq_false]
  have hplan : (repository.withParams (r.params.put "paginate" "false")).searchPlan =
      repository.searchPlan :=
    searchPlan_put (r := repository) (by decide) (hfilterable _ (by decide)) "false"
  rw [answer_list (r := r.withParam "paginate" "false") hget hroute hread hpages, hput]
  exact congrArg (fun plan => Response.many 200 (store.listed plan)) hplan

/-- The request for a page by its size and number is answered with that page. -/
theorem answer_withParam_page (hparams : r.params.get? "paginate" = none) {n page : Nat}
    (hn : 1 ≤ n) (hmaxSize : n ≤ Number.maxNatural64) (hpage : 1 ≤ page)
    (hmaxPage : page ≤ Number.maxNatural64) :
    (service.answer ((r.withParam "limit" (toString n)).withParam "page" (toString page))
        store).1 =
      .page (store.pageOf ((Repository.of service.model e).withParams r.params).searchPlan n
        page) := by
  let repository := (Repository.of service.model e).withParams r.params
  have hpages : wantsPages
      ((r.withParam "limit" (toString n)).withParam "page" (toString page)).params = true := by
    rw [Request.params_withParam_page]
    exact wantsPages_paged (r := repository) hparams
  have hrepository : (Repository.of service.model e).withParams
        ((r.withParam "limit" (toString n)).withParam "page" (toString page)).params =
      repository.withParams (repository.params.paged n page) := by
    rw [Request.params_withParam_page]
    rfl
  rw [answer_page (r := (r.withParam "limit" (toString n)).withParam "page" (toString page)) hget
    hroute hread hpages hrepository, searchPlan_paged hfilterable,
    pageSize_paged hn hmaxSize, pageNumber_paged hpage hmaxPage]

end Answers

/-- Put one after the other, the pages of a request are the list that the same request gives without
pages: the same rows in the same order.  Each page before the last one is full, what comes after the
last one is empty, and each page tells the count of the list. -/
theorem pages_make_up_list {service : Service} {store : Memory} {e : Entity} {r : Request} {n : Nat}
    (hget : r.method = "GET") (hroute : r.LeadsToRows service.model e) (hread : e.allows "read")
    (hfilterable : ∀ key ∈ pagingKeys, ¬e.filterable.contains key)
    (hparams : ∀ key ∈ pagingKeys, r.params.get? key = none)
    (hsize : (store.rows e.id).length ≤ maxRows) (hn : 1 ≤ n) (hmax : n ≤ Number.maxNatural64) :
    ∃ (all : List Value) (rows : Nat → List Value) (last : Nat),
      (service.answer (r.withParam "paginate" "false") store).1 = .many 200 all ∧
      (∀ page, 1 ≤ page → page ≤ Number.maxNatural64 →
        (service.answer ((r.withParam "limit" (toString n)).withParam "page" (toString page))
            store).1 =
          .page { rows := rows page, total := all.length, perPage := n, current := page, last }) ∧
      (1 ≤ last ∧ last ≤ Number.maxNatural64) ∧
      (List.range last).flatMap (fun i => rows (i + 1)) = all ∧
      (∀ page, 1 ≤ page → page < last → (rows page).length = n) ∧
      ∀ page, last < page → rows page = [] := by
  let plan := ((Repository.of service.model e).withParams r.params).searchPlan
  let all := store.listed plan
  have hall : all.length ≤ maxRows := Nat.le_trans (store.length_listed_le plan) hsize
  refine ⟨all, fun page => Page.window n page all, Page.countOf all.length n,
    answer_withParam_list hget hroute hread hfilterable, ?_, ⟨?_, ?_⟩,
    Page.flatMap_window hall hn, fun page => Page.length_window hall hn,
    fun page => Page.window_eq_nil hall hn⟩
  · intro page hpage hmaxPage
    rw [answer_withParam_page hget hroute hread hfilterable (hparams _ (by decide)) hn hmax hpage
        hmaxPage,
      Memory.pageOf, Page.of, Nat.max_eq_left hn]
  · exact Nat.le_max_right _ _
  · have hcount : Page.countOf all.length n ≤ max all.length 1 := Page.countOf_le all.length hn
    have hbound : max all.length 1 ≤ Number.maxNatural64 :=
      Nat.max_le.mpr ⟨Nat.le_trans hall (by decide), by decide⟩
    exact Nat.le_trans hcount hbound

/-- The books by title in pages of two. -/
theorem pages_make_up_list_books :
    let r : Request := ⟨"GET", .read "/api/v1/books?sort=title:asc", none, ""⟩
    r.params.get? "sort" = some "title:asc" ∧
    ∃ (all : List Value) (rows : Nat → List Value) (last : Nat),
      (Service.answer ⟨Bookshop.model, true⟩ (r.withParam "paginate" "false")
        (Bookshop.store "")).1 = .many 200 all ∧
      (List.range last).flatMap (fun i => rows (i + 1)) = all := by
  intro r
  obtain ⟨all, rows, last, hlist, -, -, hrows, -⟩ :=
    @pages_make_up_list ⟨Bookshop.model, true⟩ (Bookshop.store "") Bookshop.books r 2 rfl
      ⟨"books", by decide, rfl⟩ (by decide) (by decide) (by decide) (by decide) (by decide)
      (by decide)
  exact ⟨by decide, all, rows, last, hlist, hrows⟩

end EntityService
