import DocQuery.Proofs.Answer.Strategies
import DocQuery.Proofs.Store.Pages
import Mathlib.Algebra.Order.Floor.Div

/-!
# Pages partition what a query finds

Skip and limit stand between the stages that make the rows of a query and its projection.  The
projection makes one row of each row, so a page is a segment of what the pipeline finds without skip
and limit (`Store.execute_onPage`).  The count leaves out the sort as well, which only moves rows, so
it counts the same rows (`Store.execute_count`).  Skip and limit are numbers of 64 bits that are
written with 63 bits; where this changes them, both reach behind the last row, or to it.
-/

namespace DocQuery

open Execution

/-- The stages that choose a page. -/
def Stage.isPaging : Stage → Bool
  | .skip _ => true
  | .limit _ => true
  | _ => false

namespace Query

variable (query : Query) (resolved : ResolvedIds) (preStages : List Document)

/-- The query for another page. -/
def onPage (page : UInt64) : Query := { query with page := page }

/-- The pipeline of all pages: that of one page without its skip and limit. -/
def unpaged : List Stage :=
  (query.pipeline .find resolved preStages).filter fun stage => !stage.isPaging

/-- The stages that make the rows of all pages, before they are projected. -/
def front : List Stage :=
  (query.parts resolved preStages).baseStages ++ (query.parts resolved preStages).sortStages ++
    (query.parts resolved preStages).unwindStages

/-- The projection of a query as a pipeline. -/
def projection : List Stage := query.project.toList.map .project

theorem pipeline_onPage (page : UInt64) :
    (query.onPage page).pipeline .find resolved preStages =
      query.front resolved preStages ++
        ([.skip (query.onPage page).skip, .limit query.limit] ++ query.projection) := by
  simp only [pipeline, PipelineParts.assemble, PipelineParts.dataStages, front, projection,
    List.append_assoc]
  rfl

theorem isPaging_front {stage : Stage} (h : stage ∈ query.front resolved preStages) :
    stage.isPaging = false := by
  simp only [front, PipelineParts.baseStages, PipelineParts.sortStages, PipelineParts.unwindStages,
    List.mem_append, List.mem_map] at h
  rcases h with ((⟨body, -, rfl⟩ | ⟨body, -, rfl⟩) | ⟨body, -, rfl⟩) | ⟨path, -, rfl⟩ <;> rfl

theorem unpaged_eq :
    query.unpaged resolved preStages = query.front resolved preStages ++ query.projection := by
  have hfront : (query.front resolved preStages).filter (fun stage => !stage.isPaging) =
      query.front resolved preStages :=
    List.filter_eq_self.2 fun stage h => by rw [query.isPaging_front resolved preStages h]; rfl
  have hprojection : query.projection.filter (fun stage => !stage.isPaging) = query.projection := by
    simp [projection, Stage.isPaging]
  have hpipeline : query.pipeline .find resolved preStages = _ :=
    query.pipeline_onPage resolved preStages query.page
  rw [unpaged, hpipeline, List.filter_append, List.filter_append, hfront, hprojection]
  rfl

end Query

/-! ### What the stages of a query make of rows -/

namespace Execution

variable (parts : PipelineParts)

theorem runStages_sortStages {textIndex : List String} {rows sorted : List Row}
    (h : runStages textIndex rows (parts.sortStages.map Stage.toDocument) = .ok sorted) :
    sorted.Perm rows := by
  unfold PipelineParts.sortStages at h
  cases hsort : parts.sort.filter fun body => !body.isEmpty with
  | none =>
    rw [hsort] at h
    obtain rfl := Except.ok.inj h
    exact .refl _
  | some body =>
    rw [hsort] at h
    have hrun := (runStages_singleton textIndex rows _).symm.trans h
    rw [runStage_sort] at hrun
    obtain ⟨keys, -, hsort⟩ := Outcome.bind_eq_ok_iff.1 hrun
    exact stableSort_perm hsort

/-- Unwinding puts other rows in the place of each row. -/
theorem runStages_unwindStages : ∃ items : Row → List Row, ∀ textIndex rows,
    runStages textIndex rows (parts.unwindStages.map Stage.toDocument) = .ok (rows.flatMap items) := by
  unfold PipelineParts.unwindStages
  cases parts.unwind with
  | none => exact ⟨fun row => [row], fun _ rows => by simp⟩
  | some path =>
    refine ⟨unwindRow (Path.ofText path) true, fun textIndex rows => ?_⟩
    exact (runStages_singleton textIndex rows _).trans (runStage_unwind textIndex rows path true)

/-- A projection makes one row of each row. -/
theorem runStages_projection (query : Query) : ∃ shape : Row → Except StoreError Row,
    ∀ textIndex rows,
      runStages textIndex rows (query.projection.map Stage.toDocument) = rows.mapM shape := by
  unfold Query.projection
  cases query.project with
  | none =>
    refine ⟨.ok, fun _ rows => ?_⟩
    exact (Outcome.mapM_eq_ok_iff.2 (List.forall₂_same.2 fun row _ => rfl)).symm
  | some body =>
    refine ⟨runProject body, fun textIndex rows => ?_⟩
    exact (runStages_singleton textIndex rows _).trans (runStage_project textIndex rows body)

/-- What is computed for the elements of a list is computed for a segment of it. -/
theorem mapM_segment {shape : Row → Except StoreError Row} {rows out : List Row}
    (h : rows.mapM shape = .ok out) (n m : Nat) :
    ((rows.drop n).take m).mapM shape = .ok ((out.drop n).take m) :=
  Outcome.mapM_eq_ok_iff.2 (List.forall₂_take m (List.forall₂_drop n (Outcome.mapM_eq_ok_iff.1 h)))

/-- Fewer rows than 2^63 are counted as they are. -/
theorem runStages_count (textIndex : List String) {rows : List Row} (hsize : rows.length < 2 ^ 63) :
    ∃ counted, runStages textIndex rows [Stage.toDocument (.count totalField)] = .ok counted ∧
      countedTotal (counted.map Row.doc).head? = rows.length := by
  refine ⟨_, (runStages_singleton textIndex rows _).trans (runStage_count textIndex rows _), ?_⟩
  cases rows with
  | nil => rfl
  | cons row rest =>
    have hcount := asCount_ofCount (row :: rest).length
    have hbound : (row :: rest).length ≤ twoTo 63 - 1 := Nat.le_sub_one_of_lt hsize
    rw [min_eq_left hbound] at hcount
    exact congrArg (fun n => n.getD 0) hcount

end Execution

/-! ### Segments of lists -/

section Segments

variable {α : Type} (xs : List α)

/-- A bound that no list reaches does not change what is dropped. -/
theorem drop_min_of_length_le {bound : Nat} (h : xs.length ≤ bound) (n : Nat) :
    xs.drop (min n bound) = xs.drop n := by
  rcases le_total n bound with hn | hn
  · rw [min_eq_left hn]
  · rw [min_eq_right hn, List.drop_eq_nil_of_le h, List.drop_eq_nil_of_le (h.trans hn)]

theorem take_min_of_length_le {bound : Nat} (h : xs.length ≤ bound) (n : Nat) :
    xs.take (min n bound) = xs.take n := by
  rw [List.take_eq_take_iff]
  omega

/-- The segments of one length, put together. -/
theorem flatMap_segments (width count : Nat) :
    (List.range count).flatMap (fun i => (xs.drop (i * width)).take width) =
      xs.take (count * width) := by
  induction count with
  | zero => simp
  | succ count ih =>
    rw [List.range_succ, List.flatMap_append, ih, Nat.succ_mul, List.take_add]
    simp

end Segments

/-! ### One page, and the count -/

namespace Store

variable {store : Store}

/-- A pipeline in two parts finds documents if both of its parts run. -/
theorem execute_append_eq_ok_iff {name : String} {stages others : List Document}
    {docs : List Document} : store.execute name (stages ++ others) = .ok docs ↔
      ∃ c, store.find? name = some c ∧
        ∃ rows, runStages c.textIndex (c.docs.map Row.ofDocument) stages = .ok rows ∧
          ∃ out, runStages c.textIndex rows others = .ok out ∧ out.map Row.doc = docs := by
  rw [execute_append]
  cases store.find? name with
  | none => simp
  | some c => simp [Outcome.bind_eq_ok_iff, Outcome.map_eq_ok_iff]

variable {query : Query} {resolved : ResolvedIds} {preStages docs : List Document}

/-- A page is a segment of what the pipeline of all pages finds. -/
theorem execute_onPage
    (hall : store.execute query.collection
      ((query.unpaged resolved preStages).map Stage.toDocument) = .ok docs)
    (hsize : docs.length < 2 ^ 63) (page : UInt64) :
    store.execute query.collection
        (((query.onPage page).pipeline .find resolved preStages).map Stage.toDocument) =
      .ok ((docs.drop ((page.toNat - 1) * query.limit.toNat)).take query.limit.toNat) := by
  rw [query.unpaged_eq, List.map_append, execute_append_eq_ok_iff] at hall
  obtain ⟨c, hc, rows, hrows, out, hout, rfl⟩ := hall
  obtain ⟨shape, hshape⟩ := runStages_projection query
  rw [hshape] at hout
  rw [List.length_map] at hsize
  have hlength : rows.length = out.length := (Outcome.mapM_eq_ok_iff.1 hout).length_eq
  have hbound : rows.length ≤ twoTo 63 - 1 := by
    have : twoTo 63 = 2 ^ 63 := by decide
    omega
  have hdrop : rows.drop (min (query.onPage page).skip.toNat (twoTo 63 - 1)) =
      rows.drop ((page.toNat - 1) * query.limit.toNat) := by
    have hwide : twoTo 63 - 1 ≤ twoTo 64 - 1 := by decide
    have hskip : (query.onPage page).skip.toNat =
        min ((page.toNat - 1) * query.limit.toNat) (twoTo 64 - 1) := by
      refine UInt64.toNat_ofNat_of_lt' (lt_of_le_of_lt (min_le_right _ _) ?_)
      decide
    rw [drop_min_of_length_le rows hbound, hskip,
      drop_min_of_length_le rows (hbound.trans hwide)]
  have htake : ∀ segment : List Row, segment.length ≤ rows.length →
      segment.take (min query.limit.toNat (twoTo 63 - 1)) = segment.take query.limit.toNat :=
    fun segment h => take_min_of_length_le segment (h.trans hbound) _
  rw [query.pipeline_onPage, List.map_append, execute_append_eq_ok_iff]
  refine ⟨c, hc, rows, hrows, (out.drop _).take _, ?_, by rw [List.map_take, List.map_drop]⟩
  rw [List.map_append, runStages_append, List.map_cons, List.map_singleton, runStages_cons,
    runStage_skip, Outcome.ok_bind, runStages_singleton, runStage_limit, Outcome.ok_bind, hdrop,
    htake _ (by simp), hshape]
  exact mapM_segment hout _ _

/-- The count is the number of documents that the pipeline of all pages finds. -/
theorem execute_count
    (hall : store.execute query.collection
      ((query.unpaged resolved preStages).map Stage.toDocument) = .ok docs)
    (hsize : docs.length < 2 ^ 63) :
    ∃ counted, store.execute query.collection
        ((query.pipeline .count resolved preStages).map Stage.toDocument) = .ok counted ∧
      countedTotal counted.head? = docs.length := by
  rw [query.unpaged_eq, List.map_append, execute_append_eq_ok_iff] at hall
  obtain ⟨c, hc, rows, hrows, out, hout, rfl⟩ := hall
  obtain ⟨shape, hshape⟩ := runStages_projection query
  rw [hshape] at hout
  have hlength : rows.length = out.length := (Outcome.mapM_eq_ok_iff.1 hout).length_eq
  -- the rows of all pages are those in front of the sort, moved and unwound
  obtain ⟨items, hitems⟩ := runStages_unwindStages (query.parts resolved preStages)
  rw [Query.front, List.map_append, List.map_append, runStages_append, runStages_append] at hrows
  obtain ⟨sorted, hsorted, hrows⟩ := Outcome.bind_eq_ok_iff.1 hrows
  obtain ⟨base, hbase, hsorted⟩ := Outcome.bind_eq_ok_iff.1 hsorted
  rw [hitems] at hrows
  obtain rfl := Except.ok.inj hrows
  have hperm : (sorted.flatMap items).Perm (base.flatMap items) :=
    (runStages_sortStages _ hsorted).flatMap_right items
  have hcounted : (base.flatMap items).length = out.length := hperm.length_eq.symm.trans hlength
  have hpipeline : query.pipeline .count resolved preStages =
      (query.parts resolved preStages).baseStages ++
        ((query.parts resolved preStages).unwindStages ++ [.count totalField]) := rfl
  rw [List.length_map, ← hcounted] at hsize
  obtain ⟨counted, hcount, htotal⟩ := runStages_count c.textIndex hsize
  refine ⟨counted.map Row.doc, ?_, by rw [htotal, hcounted, List.length_map]⟩
  rw [hpipeline, List.map_append, execute_append_eq_ok_iff]
  refine ⟨c, hc, base, hbase, counted, ?_, rfl⟩
  rw [List.map_append, runStages_append, hitems, Outcome.ok_bind, List.map_singleton, hcount]

end Store

/-! ### All pages -/

theorem Page.pagesFor_eq_ceilDiv {limit : Nat} (hlimit : 1 ≤ limit) (total : Nat) :
    pagesFor total limit = total ⌈/⌉ limit := by
  rw [pagesFor, max_eq_left hlimit, Nat.ceilDiv_eq_add_pred_div, Nat.add_sub_assoc hlimit]

namespace Query

variable {store : Store} {query : Query} {resolved : ResolvedIds} {preStages docs : List Document}

/-- **Pages partition what a query finds.**  `docs` are the documents that the pipeline of a page
finds without its skip and limit.  The count is their number, the number of pages is this divided by
the limit and rounded up, each page is its segment of `docs`, which is empty behind the last page
only, and all pages one after the other are `docs`.  Pages and limits are any numbers of 64 bits. -/
theorem pages_partition (hlimit : 1 ≤ query.limit.toNat)
    (hall : store.execute query.collection
      ((query.unpaged resolved preStages).map Stage.toDocument) = .ok docs)
    (hsize : docs.length < 2 ^ 63) :
    ∃ (counted : List Document) (found : UInt64 → List Document),
      store.execute query.collection
          ((query.pipeline .count resolved preStages).map Stage.toDocument) = .ok counted ∧
      countedTotal counted.head? = docs.length ∧
      (∀ page : UInt64, 1 ≤ page.toNat →
        store.execute query.collection
            (((query.onPage page).pipeline .find resolved preStages).map Stage.toDocument) =
          .ok (found page) ∧
        found page = docs.extract ((page.toNat - 1) * query.limit.toNat)
          (min (page.toNat * query.limit.toNat) docs.length) ∧
        (Page.ofQuery (query.onPage page) docs.length (found page)).pages =
          docs.length ⌈/⌉ query.limit.toNat ∧
        (found page = [] ↔ docs.length ⌈/⌉ query.limit.toNat < page.toNat)) ∧
      (List.range (docs.length ⌈/⌉ query.limit.toNat)).flatMap
        (fun i => found (UInt64.ofNat (i + 1))) = docs := by
  obtain ⟨counted, hcount, htotal⟩ := Store.execute_count hall hsize
  let segment : Nat → List Document := fun i =>
    (docs.drop (i * query.limit.toNat)).take query.limit.toNat
  refine ⟨counted, fun page => segment (page.toNat - 1), hcount, htotal, ?_, ?_⟩
  · intro page hpage
    refine ⟨Store.execute_onPage hall hsize page, ?_, ?_, ?_⟩
    · have hend : page.toNat * query.limit.toNat =
          (page.toNat - 1) * query.limit.toNat + query.limit.toNat := by
        rw [← Nat.succ_mul, Nat.succ_eq_add_one, Nat.sub_add_cancel hpage]
      rw [List.extract_eq_take_drop, List.take_eq_take_iff, List.length_drop, hend]
      omega
    · exact Page.pagesFor_eq_ceilDiv hlimit _
    · have hempty : segment (page.toNat - 1) = [] ↔
          docs.length ≤ (page.toNat - 1) * query.limit.toNat := by
        simp only [segment, List.take_eq_nil_iff, List.drop_eq_nil_iff]
        omega
      rw [hempty, Nat.mul_comm, ← ceilDiv_le_iff_le_mul hlimit]
      omega
  · have hpages : docs.length ⌈/⌉ query.limit.toNat ≤ docs.length := by
      rw [ceilDiv_le_iff_le_mul hlimit]
      exact Nat.le_mul_of_pos_left _ hlimit
    have hcover : docs.length ≤ query.limit.toNat * (docs.length ⌈/⌉ query.limit.toNat) :=
      (ceilDiv_le_iff_le_mul hlimit).1 le_rfl
    calc (List.range (docs.length ⌈/⌉ query.limit.toNat)).flatMap
          (fun i => segment ((UInt64.ofNat (i + 1)).toNat - 1))
        = (List.range (docs.length ⌈/⌉ query.limit.toNat)).flatMap segment := by
          refine List.flatMap_congr fun i hi => ?_
          have hi := List.mem_range.1 hi
          rw [UInt64.toNat_ofNat_of_lt' (by rw [UInt64.size]; omega), Nat.add_sub_cancel]
      _ = docs.take ((docs.length ⌈/⌉ query.limit.toNat) * query.limit.toNat) :=
          flatMap_segments docs _ _
      _ = docs := List.take_of_length_le (by rwa [Nat.mul_comm])

end Query

/-! ### Five scores on pages of two -/

namespace Scores

def score (id n : Int32) : Document := [("_id", .int32 id), ("n", .int32 n)]

def store : Store :=
  ⟨[("scores", ⟨[score 1 3, score 2 5, score 3 1, score 4 3, score 5 2], []⟩)], ⟨0⟩, 0⟩

/-- The scores, the greatest first. -/
def query : Query where
  collection := "scores"
  filter := .empty
  order := ⟨[("n", .descending)], []⟩
  selection := none
  project := none
  joins := []
  unwind := none
  page := 1
  limit := 2
  textSearch := false

theorem third_page_is_the_last :
    ∃ found : UInt64 → List Document, found 3 = [score 3 1] ∧ found 4 = [] := by
  have hall : store.execute query.collection ((query.unpaged [] []).map Stage.toDocument) =
      .ok [score 2 5, score 1 3, score 4 3, score 5 2, score 3 1] := by rfl
  obtain ⟨_, found, -, -, hpages, -⟩ := Query.pages_partition (by decide) hall (by decide)
  exact ⟨found, (hpages 3 (by decide)).2.1, (hpages 4 (by decide)).2.2.2.2 (by decide)⟩

end Scores

end DocQuery
