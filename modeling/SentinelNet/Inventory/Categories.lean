import SentinelNet.Observability.Window

/-!
# The categories of devices

`services/inventory_manager.py` keeps what the users say about the nodes of the map: a catalogue of
categories with their subcategories, the models of the vendors, and for each node of a tenant the
fields that were set by hand. A subcategory belongs to a category, but it is deleted by its name
alone, and a category is deleted with everything that was said about its devices. A table with a
primary key is a function from the keys to the rows.

* `touches_named_iff`: when an operation touches what it names, and no more.
* `printer_loses_subcategory`: a device of another category.
-/

namespace SentinelNet.Inventory

open PyText Observability

/-! ## The tables -/

/-- `_META_FIELDS` -/
inductive MetaField where
  | category
  | subcategory
  | vendor
  | model
  | haGroup
  | name
  | ver
  deriving DecidableEq

def metaFields : List MetaField :=
  [.category, .subcategory, .vendor, .model, .haGroup, .name, .ver]

def builtinCategories : List (String × String) :=
  [("ap", "Access Point"), ("wlc", "Wireless LAN Controller"), ("firewall", "Firewall"),
    ("router", "Router"), ("switch", "Switch"), ("server", "Server"), ("phone", "Telefono IP"),
    ("camera", "Telecamera IP"), ("pc", "PC / Workstation"), ("other", "Altro")]

abbrev NodeKey := String × String

/-- The fields that were set by hand. -/
abbrev DeviceMeta := MetaField → Option String

/-- `device_meta.db`: the labels of the categories, the rows of the nodes, and what else is there. -/
structure MetaDb where
  categories : String → Option String
  subcategories : String × String → Bool
  assignments : NodeKey → Option DeviceMeta
  models : String × String → Bool

def MetaDb.empty : MetaDb := ⟨fun _ => none, fun _ => false, fun _ => none, fun _ => false⟩

def MetaDb.get (db : MetaDb) (k : NodeKey) (f : MetaField) : Option String :=
  (db.assignments k).bind fun entry => entry f

def isBuiltin (key : String) : Bool := (builtinCategories.lookup key).isSome

/-- A category that is built in or in the catalogue. -/
def MetaDb.knows (db : MetaDb) (key : String) : Prop :=
  isBuiltin key = true ∨ db.categories key ≠ none

instance (db : MetaDb) (key : String) : Decidable (db.knows key) :=
  inferInstanceAs (Decidable (_ ∨ _))

/-! ## Operations -/

def normCatKey (key : String) : String :=
  String.ofList (((lowerText (strip key)).toList.map fun c => if c = ' ' then '-' else c).filter
    fun c => ('a' ≤ c && c ≤ 'z') || ('0' ≤ c && c ≤ '9') || c = '_' || c = '-')

/-- `_write_assignment`: the row, unless no field is left. -/
def writeAssignment (entry : DeviceMeta) : Option DeviceMeta :=
  let fields : DeviceMeta := fun f => (entry f).filter (· ≠ "")
  if metaFields.all fun f => (fields f).isNone then none else some fields

/-- The label that a category gets: a new one, or the one that is there. -/
def labelOf (stored : Option String) (key label : String) : String :=
  match builtinCategories.lookup key with
  | some builtin => stored.getD builtin
  | none => if label = "" then stored.getD key else label

def addCategory (db : MetaDb) (key label subcategory : String) : MetaDb × Bool :=
  let key := normCatKey key
  let sub := strip subcategory
  if key = "" then (db, false)
  else
    ({ db with
      categories :=
        Function.update db.categories key (some (labelOf (db.categories key) key (strip label)))
      subcategories := fun s => db.subcategories s || (sub ≠ "" && s = (key, sub)) }, true)

def deleteCategory (db : MetaDb) (key : String) : MetaDb × Bool :=
  let key := normCatKey key
  if isBuiltin key ∨ db.categories key = none then (db, false)
  else
    ({ db with
      categories := Function.update db.categories key none
      subcategories := fun s => db.subcategories s && s.1 ≠ key
      assignments := fun k => (db.assignments k).filter fun entry =>
        entry .category ≠ some key }, true)

def deleteSubcategory (db : MetaDb) (category subcategory : String) : MetaDb × Bool :=
  let category := normCatKey category
  let subcategory := strip subcategory
  if category ≠ "" ∧ subcategory ≠ "" ∧ db.subcategories (category, subcategory) then
    ({ db with
      subcategories := fun s => db.subcategories s && s ≠ (category, subcategory)
      assignments := fun k => (db.assignments k).map fun entry =>
        if entry .subcategory = some subcategory then Function.update entry .subcategory none
        else entry }, true)
  else (db, false)

/-- `UPDATE OR REPLACE`: a row that is at the new key gives way. -/
def migrateAssignment (db : MetaDb) (old new : NodeKey) : MetaDb :=
  match db.assignments old with
  | none => db
  | some entry =>
    { db with
      assignments := Function.update (Function.update db.assignments old none) new (some entry) }

/-- The fields that are given, one after the other, unless a category is not known. -/
def setFields (db : MetaDb) (entry : DeviceMeta) : List (MetaField × String) → Option DeviceMeta
  | [] => some entry
  | (f, v) :: fields =>
    let v := strip v
    if f = .category ∧ v ≠ "" then
      if db.knows (normCatKey v) then
        setFields db (Function.update entry f (some (normCatKey v))) fields
      else none
    else setFields db (Function.update entry f (some v)) fields

/-- `set_device_meta`, with the tenant that the caller or the inventory gives. -/
def setDeviceMeta (db : MetaDb) (tenant nodeId : String) (fields : List (MetaField × String)) :
    MetaDb × Bool :=
  let k : NodeKey := (strip tenant, strip nodeId)
  if k.2 = "" ∨ fields = [] then (db, false)
  else
    match setFields db ((db.assignments k).getD fun _ => none) fields with
    | none => (db, false)
    | some entry =>
      ({ db with assignments := Function.update db.assignments k (writeAssignment entry) }, true)

/-- `lower(trim(coalesce(vendor, '')))` -/
def vendorText (vendor : Option String) : String :=
  let cs := (vendor.getD "").toList
  lower (String.ofList ((cs.dropWhile (· = ' ')).rdropWhile (· = ' ')))

def mergeModels (db : MetaDb) (vendor canonical : String) (duplicates : List String) : MetaDb :=
  let vendor := lowerText (strip vendor)
  let canonical := strip canonical
  let dups := (duplicates.map strip).filter fun d => d ≠ "" && d ≠ canonical
  if vendor = "" ∨ canonical = "" ∨ dups = [] then db
  else
    { db with
      models := fun m =>
        (db.models m && !(m.1 = vendor && m.2 ∈ dups)) || m = (vendor, canonical)
      assignments := fun k => (db.assignments k).map fun entry =>
        if (entry .model).any (· ∈ dups) ∧ vendorText (entry .vendor) ∈ ["", vendor] then
          Function.update entry .model (some canonical)
        else entry }

/-- An operation, with its arguments. -/
inductive MetaOp where
  | addCategory (key label subcategory : String)
  | deleteCategory (key : String)
  | deleteSubcategory (category subcategory : String)
  | setDeviceMeta (tenant nodeId : String) (fields : List (MetaField × String))
  | migrateAssignment (oldId newId oldTenant newTenant : String)
  | mergeModels (vendor canonical : String) (duplicates : List String)

def MetaDb.step (db : MetaDb) : MetaOp → MetaDb
  | .addCategory key label subcategory => (addCategory db key label subcategory).1
  | .deleteCategory key => (deleteCategory db key).1
  | .deleteSubcategory category subcategory => (deleteSubcategory db category subcategory).1
  | .setDeviceMeta tenant nodeId fields => (setDeviceMeta db tenant nodeId fields).1
  | .migrateAssignment oldId newId oldTenant newTenant =>
    migrateAssignment db (strip oldTenant, oldId) (strip newTenant, newId)
  | .mergeModels vendor canonical duplicates => mergeModels db vendor canonical duplicates

/-- The state after a list of operations. -/
def MetaDb.run (ops : List MetaOp) : MetaDb := ops.foldl MetaDb.step .empty

/-! ## What is expected of them -/

/-- The category of every node is known. -/
def MetaDb.Sound (db : MetaDb) : Prop := ∀ k c, db.get k .category = some c → db.knows c

/-- A node of which nothing changes. -/
def SameNode (db db' : MetaDb) (k : NodeKey) : Prop := ∀ f, db'.get k f = db.get k f

/-- What an operation may change of the nodes. -/
def TouchesNamed (db : MetaDb) : MetaOp → MetaDb → Prop
  | .addCategory .., db' => ∀ k, SameNode db db' k
  | .deleteCategory key, db' => ∀ k,
    if isBuiltin (normCatKey key) ∨ db.get k .category ≠ some (normCatKey key) then
      SameNode db db' k
    else db'.get k .category = none ∧
      ∀ f, f ≠ .category → f ≠ .subcategory → db'.get k f = db.get k f
  | .deleteSubcategory category subcategory, db' => ∀ k,
    if db.get k .category = some (normCatKey category) ∧
        db.get k .subcategory = some (strip subcategory) then
      ∀ f, db'.get k f = if f = .subcategory then none else db.get k f
    else SameNode db db' k
  | .setDeviceMeta tenant nodeId _, db' => ∀ k, k ≠ (strip tenant, strip nodeId) →
    SameNode db db' k
  | .migrateAssignment oldId newId oldTenant newTenant, db' => ∀ k,
    k ≠ (strip oldTenant, oldId) → k ≠ (strip newTenant, newId) → SameNode db db' k
  | .mergeModels .., db' => ∀ k f, f ≠ .model → db'.get k f = db.get k f

/-- A category is deleted of whose devices no other field was set; a subcategory that devices have
is deleted where their category, and no other, has it. -/
def Separate (db : MetaDb) : MetaOp → Prop
  | .deleteCategory key => isBuiltin (normCatKey key) = false →
    ∀ k, db.get k .category = some (normCatKey key) →
      ∀ f, f ≠ .category → f ≠ .subcategory → db.get k f = none
  | .deleteSubcategory category subcategory => ∀ k,
    db.get k .subcategory = some (strip subcategory) →
      (db.get k .category = some (normCatKey category) ↔
        normCatKey category ≠ "" ∧ strip subcategory ≠ "" ∧
          db.subcategories (normCatKey category, strip subcategory) = true)
  | _ => True

/-! ## The fields after an operation -/

section Fields

variable {db : MetaDb} (k : NodeKey) (f : MetaField)

theorem get_addCategory (key label subcategory : String) :
    (addCategory db key label subcategory).1.get k f = db.get k f := by
  unfold addCategory MetaDb.get
  dsimp only
  split <;> rfl

theorem get_deleteSubcategory (category subcategory : String) :
    (deleteSubcategory db category subcategory).1.get k f =
      if (normCatKey category ≠ "" ∧ strip subcategory ≠ "" ∧
          db.subcategories (normCatKey category, strip subcategory) = true) ∧
        db.get k .subcategory = some (strip subcategory) ∧ f = .subcategory then none
      else db.get k f := by
  unfold deleteSubcategory MetaDb.get
  dsimp only
  split
  · next hdeletes =>
    simp only [hdeletes, ne_eq, not_false_eq_true, and_self, true_and]
    cases db.assignments k with
    | none => simp
    | some entry =>
      by_cases hsub : entry .subcategory = some (strip subcategory)
      · simp [hsub, Function.update_apply]
      · simp [hsub]
  · next hnot => rw [if_neg fun h => hnot h.1]

theorem get_deleteCategory {key : String} (hbuiltin : isBuiltin (normCatKey key) = false)
    (hsound : db.Sound) : (deleteCategory db key).1.get k f =
      if db.get k .category = some (normCatKey key) then none else db.get k f := by
  unfold deleteCategory
  dsimp only
  split
  · next hnot =>
    rw [if_neg fun hcat => ?_]
    rcases hsound k _ hcat with h | h
    · exact absurd h (by simp [hbuiltin])
    · exact h (hnot.resolve_left (by simp [hbuiltin]))
  · unfold MetaDb.get
    dsimp only
    cases db.assignments k with
    | none => simp
    | some entry =>
      rw [Option.filter_some]
      split <;> simp_all

theorem get_mergeModels (vendor canonical : String) (duplicates : List String)
    (hf : f ≠ .model) : (mergeModels db vendor canonical duplicates).get k f = db.get k f := by
  unfold mergeModels MetaDb.get
  dsimp only
  split
  · rfl
  dsimp only
  cases db.assignments k with
  | none => rfl
  | some entry =>
    rw [Option.map_some, Option.bind_some]
    split
    · exact Function.update_of_ne hf _ _
    · rfl

theorem get_migrateAssignment {old new : NodeKey} {entry : DeviceMeta}
    (h : db.assignments old = some entry) : (migrateAssignment db old new).get k f =
      if k = new then db.get old f else if k = old then none else db.get k f := by
  simp only [migrateAssignment, MetaDb.get, h, Function.update_apply]
  split
  · rfl
  · split <;> rfl

theorem setFields_category {fields : List (MetaField × String)} {entry entry' : DeviceMeta}
    (h : setFields db entry fields = some entry')
    (hknown : ∀ c, entry .category = some c → c = "" ∨ db.knows c) :
    ∀ c, entry' .category = some c → c = "" ∨ db.knows c := by
  induction fields generalizing entry with
  | nil => exact Option.some.inj h ▸ hknown
  | cons e fields ih =>
    obtain ⟨f, v⟩ := e
    rw [setFields] at h
    split at h
    · next hcat =>
      split at h
      · next hk =>
        refine ih h fun c hc => Or.inr ?_
        rw [hcat.1, Function.update_self, Option.some.injEq] at hc
        exact hc ▸ hk
      · cases h
    · next hcat =>
      refine ih h fun c hc => ?_
      by_cases hf : f = .category
      · rw [hf, Function.update_self, Option.some.injEq] at hc
        exact Or.inl (hc ▸ not_not.mp fun hv => hcat ⟨hf, hv⟩)
      · rw [Function.update_of_ne (Ne.symm hf)] at hc
        exact hknown c hc

end Fields

/-! ## Every state -/

section States

variable {db : MetaDb}

theorem sound_addCategory (h : db.Sound) (key label subcategory : String) :
    (addCategory db key label subcategory).1.Sound := by
  intro k c hc
  rw [get_addCategory] at hc
  unfold addCategory
  dsimp only
  split
  · exact h k c hc
  refine (h k c hc).imp_right fun hstored => ?_
  simp only [Function.update_apply]
  split
  · exact Option.some_ne_none _
  · exact hstored

theorem sound_deleteCategory (h : db.Sound) (key : String) : (deleteCategory db key).1.Sound := by
  cases hbuiltin : isBuiltin (normCatKey key) with
  | true =>
    rw [deleteCategory, if_pos (Or.inl hbuiltin)]
    exact h
  | false =>
    intro k c hc
    rw [get_deleteCategory k _ hbuiltin h] at hc
    split at hc
    · cases hc
    next hne =>
    refine (h k c hc).imp_right fun hstored => ?_
    have hc' : c ≠ normCatKey key := fun heq => hne (heq ▸ hc)
    unfold deleteCategory
    dsimp only
    split
    · exact hstored
    · dsimp only
      rw [Function.update_of_ne hc']
      exact hstored

theorem sound_setDeviceMeta (h : db.Sound) (tenant nodeId : String)
    (fields : List (MetaField × String)) : (setDeviceMeta db tenant nodeId fields).1.Sound := by
  unfold setDeviceMeta
  dsimp only
  split
  · exact h
  cases hset : setFields db ((db.assignments (strip tenant, strip nodeId)).getD fun _ => none)
      fields with
  | none => exact h
  | some entry =>
    have hknown := setFields_category hset fun c hc => Or.inr (h (strip tenant, strip nodeId) c ?_)
    · intro k c hc
      simp only [MetaDb.get, Function.update_apply] at hc
      split at hc
      · unfold writeAssignment at hc
        dsimp only at hc
        split at hc
        · cases hc
        · obtain ⟨hc, hne⟩ := Option.filter_eq_some_iff.mp hc
          exact (hknown c hc).resolve_left (of_decide_eq_true hne)
      · exact h k c hc
    · unfold MetaDb.get
      cases hrow : db.assignments (strip tenant, strip nodeId) with
      | none =>
        rw [hrow] at hc
        cases hc
      | some old =>
        rw [hrow] at hc
        exact hc

theorem sound_migrateAssignment (h : db.Sound) (old new : NodeKey) :
    (migrateAssignment db old new).Sound := by
  cases hrow : db.assignments old with
  | none =>
    unfold migrateAssignment
    rw [hrow]
    exact h
  | some entry =>
    intro k c hc
    have hknown : db.knows c := by
      rw [get_migrateAssignment k _ hrow] at hc
      split at hc
      · exact h old c hc
      · split at hc
        · cases hc
        · exact h k c hc
    unfold migrateAssignment
    rw [hrow]
    exact hknown

theorem MetaDb.Sound.step (h : db.Sound) (op : MetaOp) : (db.step op).Sound := by
  cases op with
  | addCategory key label subcategory => exact sound_addCategory h key label subcategory
  | deleteCategory key => exact sound_deleteCategory h key
  | deleteSubcategory category subcategory =>
    intro k c hc
    rw [MetaDb.step, get_deleteSubcategory, if_neg fun hfalse => nomatch hfalse.2.2] at hc
    unfold MetaDb.step deleteSubcategory
    dsimp only
    split <;> exact h k c hc
  | setDeviceMeta tenant nodeId fields => exact sound_setDeviceMeta h tenant nodeId fields
  | migrateAssignment oldId newId oldTenant newTenant => exact sound_migrateAssignment h _ _
  | mergeModels vendor canonical duplicates =>
    intro k c hc
    rw [MetaDb.step, get_mergeModels _ _ _ _ _ (by decide)] at hc
    unfold MetaDb.step mergeModels
    dsimp only
    split <;> exact h k c hc

theorem MetaDb.sound_run (ops : List MetaOp) : (MetaDb.run ops).Sound :=
  List.foldlRecOn ops MetaDb.step (fun _ _ h => nomatch h) fun _ h op _ => h.step op

/-- A subcategory is cleared where it should be. -/
theorem clears_iff {entry : DeviceMeta} {named deleted : Prop} [Decidable named]
    [Decidable deleted] (hsub : entry .subcategory ≠ none) :
    (if named then ∀ f, (if deleted ∧ f = .subcategory then none else entry f) =
        if f = .subcategory then none else entry f
      else ∀ f, (if deleted ∧ f = .subcategory then none else entry f) = entry f) ↔
      (named ↔ deleted) := by
  by_cases hnamed : named
  · rw [if_pos hnamed, iff_true_left hnamed]
    refine ⟨fun h => ?_, fun h f => by simp [h]⟩
    by_contra hdeleted
    exact hsub (by simpa [hdeleted] using h .subcategory)
  · rw [if_neg hnamed, iff_false_left hnamed]
    refine ⟨fun h hdeleted => ?_, fun h f => by simp [h]⟩
    exact hsub (by simpa [hdeleted] using (h .subcategory).symm)

/-- What an operation touches, in a state where every category is known. -/
theorem MetaDb.Sound.touchesNamed_iff (h : db.Sound) (op : MetaOp) :
    TouchesNamed db op (db.step op) ↔ Separate db op := by
  cases op with
  | addCategory key label subcategory =>
    refine iff_of_true (fun k f => ?_) trivial
    rw [MetaDb.step, get_addCategory]
  | deleteCategory key =>
    cases hbuiltin : isBuiltin (normCatKey key) with
    | true => simp [TouchesNamed, Separate, MetaDb.step, deleteCategory, hbuiltin, SameNode]
    | false =>
      simp only [TouchesNamed, Separate, MetaDb.step, SameNode, hbuiltin, Bool.false_eq_true,
        false_or, forall_const, get_deleteCategory _ _ hbuiltin h]
      refine forall_congr' fun k => ?_
      by_cases hcat : db.get k .category = some (normCatKey key)
      · simp [hcat, eq_comm]
      · simp [hcat]
  | deleteSubcategory category subcategory =>
    simp only [TouchesNamed, Separate, MetaDb.step, SameNode, get_deleteSubcategory]
    refine forall_congr' fun k => ?_
    by_cases hsub : db.get k .subcategory = some (strip subcategory)
    · have hclears := @clears_iff (db.get k) (db.get k .category = some (normCatKey category))
        (normCatKey category ≠ "" ∧ strip subcategory ≠ "" ∧
          db.subcategories (normCatKey category, strip subcategory) = true) _ _
        (hsub ▸ Option.some_ne_none _)
      simpa only [hsub, and_true, true_and, forall_const] using hclears
    · simp [hsub]
  | setDeviceMeta tenant nodeId fields =>
    refine iff_of_true (fun k hk f => ?_) trivial
    unfold MetaDb.step setDeviceMeta
    dsimp only
    split
    · rfl
    · split
      · rfl
      · simp only [MetaDb.get, Function.update_of_ne hk]
  | migrateAssignment oldId newId oldTenant newTenant =>
    refine iff_of_true (fun k hold hnew f => ?_) trivial
    cases hrow : db.assignments (strip oldTenant, oldId) with
    | none => simp only [MetaDb.step, migrateAssignment, hrow]
    | some entry => rw [MetaDb.step, get_migrateAssignment k f hrow, if_neg hnew, if_neg hold]
  | mergeModels vendor canonical duplicates =>
    refine iff_of_true (fun k f hf => ?_) trivial
    rw [MetaDb.step, get_mergeModels k f vendor canonical duplicates hf]

end States

/-- In every state that the operations lead to, the category of every node is known; and the next
operation touches only what it names if and only if it meets its condition. -/
theorem touches_named_iff (ops : List MetaOp) :
    (MetaDb.run ops).Sound ∧ ∀ op,
      TouchesNamed (MetaDb.run ops) op ((MetaDb.run ops).step op) ↔
        Separate (MetaDb.run ops) op :=
  ⟨MetaDb.sound_run ops, (MetaDb.sound_run ops).touchesNamed_iff⟩

/-- Printers and servers have a laboratory each. -/
def twoLaboratories : List MetaOp :=
  [.addCategory "printer" "Stampante" "lab", .addCategory "server" "" "lab",
    .setDeviceMeta "acme" "10.0.0.9" [(.category, "printer"), (.subcategory, "lab")]]

/-- The servers lose theirs, and a printer with it. -/
theorem printer_loses_subcategory : ¬∀ (ops : List MetaOp) (op : MetaOp),
    TouchesNamed (MetaDb.run ops) op ((MetaDb.run ops).step op) := by
  intro hall
  have hsame := hall twoLaboratories (.deleteSubcategory "server" "lab") ("acme", "10.0.0.9")
  have hprinter : (MetaDb.run twoLaboratories).get ("acme", "10.0.0.9") .category ≠
      some (normCatKey "server") := by decide
  rw [if_neg fun h => hprinter h.1] at hsame
  exact absurd (hsame .subcategory) (by decide)

end SentinelNet.Inventory
