import Mathlib.Data.List.Nodup
import Mathlib.Data.List.Perm.Subperm
import EvQueue.SocketQuerySAX2Handler

/-!
# WorkflowParameters — the parameters of a launch, and those of the workflow

`Add` refuses a name twice.  The constructor of an instance sets every parameter it was given in the
workflow, where it has to exist, and then compares two counts.  It never asks whether a parameter of the
workflow was left out.
-/

namespace EvQueue

/-- The cells from `first_parameter` on, with the name and the value of each. -/
structure WorkflowParameters where
  parameters : List (List UInt8 × List UInt8)
  unique : (parameters.map Prod.fst).Nodup

namespace WorkflowParameters

def create : WorkflowParameters := ⟨[], List.nodup_nil⟩

/-- `none` is the answer `false`. -/
def add (p : WorkflowParameters) (name value : List UInt8) : Option WorkflowParameters :=
  if h : ∃ q ∈ p.parameters, q.1 = name then none
  else some ⟨(name, value) :: p.parameters, List.nodup_cons.mpr ⟨fun hin ↦ h (List.mem_map.mp hin), p.unique⟩⟩

/-- Any sequence of calls of `Add`; one that is refused changes nothing. -/
def addAll (calls : List (List UInt8 × List UInt8)) : WorkflowParameters :=
  calls.foldl (fun p call ↦ (p.add call.1 call.2).getD p) create

/-- Calls of `Add` build every such list, from its last cell to its first. -/
theorem addAll_reverse : ∀ p : WorkflowParameters, addAll p.parameters.reverse = p
  | ⟨[], _⟩ => rfl
  | ⟨(name, value) :: rest, unique⟩ => by
      obtain ⟨hnew, hrest⟩ := List.nodup_cons.mp unique
      have hbuilt : addAll rest.reverse = ⟨rest, hrest⟩ := addAll_reverse ⟨rest, hrest⟩
      have hadd : (⟨rest, hrest⟩ : WorkflowParameters).add name value =
          some ⟨(name, value) :: rest, unique⟩ := dif_neg fun h ↦ hnew (List.mem_map.mpr h)
      unfold addAll at hbuilt ⊢
      rw [List.reverse_cons, List.foldl_append, hbuilt, List.foldl_cons, List.foldl_nil, hadd]
      rfl

/-- The handler of a request adds what `Add` does, and throws where it refuses. -/
theorem params_of_parameterElement {xml : XMLString} {localname name value : String} {attrs : Attributes}
    {h h' : SocketQuerySAX2Handler} (p : WorkflowParameters) (hp : p.parameters = h.params)
    (hname : attrs.getValue "name" = some name) (hvalue : attrs.getValue "value" = some value)
    (hok : h.parameterElement xml localname attrs = some (.ok h')) :
    ∃ p', p.add (xml.transcode name) (xml.transcode value) = some p' ∧ p'.parameters = h'.params := by
  unfold SocketQuerySAX2Handler.parameterElement at hok
  rw [hname, hvalue] at hok
  split at hok
  · cases hok
  · dsimp only at hok
    split at hok
    · cases hok
    · split at hok
      · cases hok
      · cases hok
      · split at hok
        · cases hok
        · rename_i hnew
          have hmem : ¬∃ q ∈ p.parameters, q.1 = xml.transcode name := by
            rw [hp]
            rintro ⟨q, hq, heq⟩
            exact hnew (List.any_eq_true.mpr ⟨q, hq, decide_eq_true heq⟩)
          cases hok
          exact ⟨_, dif_neg hmem, by rw [← hp]⟩

end WorkflowParameters

/-! ## The workflow -/

/-- A node that `parameters/parameter` selects. -/
structure ParameterNode where
  /-- The attribute `name`, if it has one. -/
  name : Option String
  textContent : String
deriving DecidableEq, Repr

/-- What the constructor looks at of the workflow's document. -/
structure Template where
  /-- In document order. -/
  parameters : List ParameterNode
  /-- The attributes `retry_schedule` of the tasks that have one. -/
  retrySchedules : List String
  /-- The names of `schedules/schedule`. -/
  schedules : List (Option String)
deriving DecidableEq, Repr

/-- `X`, and `evaluate` with the document element as context.  A node is given by its place among those that
`parameters/parameter` or `schedules/schedule` selects. -/
structure XQilla where
  transcode : List UInt8 → String
  evaluateParameter : Template → String → Option Nat
  evaluateSchedule : Template → String → Option Nat
  evaluateInteger : Template → String → Int

/-- The characters of a byte string, one for each byte. -/
def latin (bytes : List UInt8) : String := String.ofList (bytes.map fun b ↦ Char.ofNat b.toNat)

/-- `sprintf(buf2,"parameters/parameter[@name = '%s']",parameter_name)`. -/
def parameterQuery (name : List UInt8) : List UInt8 :=
  ascii "parameters/parameter[@name = '" ++ name ++ ascii "']"

/-- `sprintf(buf2,"Unknown parameter : %s",parameter_name)`. -/
def unknownParameter (name : List UInt8) : List UInt8 := ascii "Unknown parameter : " ++ name

/-- For the names the handler lets through both fit into `buf2`. -/
theorem parameterQuery_fits {name : List UInt8}
    (h : name.length ≤ SocketQuerySAX2Handler.parameterNameMaxLen) :
    (parameterQuery name).length < 256 + SocketQuerySAX2Handler.parameterNameMaxLen ∧
      (unknownParameter name).length < 256 + SocketQuerySAX2Handler.parameterNameMaxLen := by
  have hquery : (ascii "parameters/parameter[@name = '").length = 30 := by decide
  have hend : (ascii "']").length = 2 := by decide
  have hunknown : (ascii "Unknown parameter : ").length = 20 := by decide
  unfold parameterQuery unknownParameter
  simp only [List.length_append, hquery, hend, hunknown]
  omega

namespace Template

/-- `parameter_node->setTextContent(X(parameter_value))`. -/
def setTextContent (t : Template) (i : Nat) (text : String) : Template :=
  { t with parameters := t.parameters.modify i fun n ↦ { n with textContent := text } }

variable (xq : XQilla)

/-- `while(parameters->Get(&parameter_name,&parameter_value))`, which counts what it sets. -/
def setParameters : List (List UInt8 × List UInt8) → Template → Int → Except Exception (Template × Int)
  | [], t, passed => .ok (t, passed)
  | (name, value) :: rest, t, passed =>
      match xq.evaluateParameter t (xq.transcode (parameterQuery name)) with
      -- `res->isNode()`
      | some i => setParameters rest (t.setTextContent i (xq.transcode value)) (passed + 1)
      | none => .error ⟨"WorkflowInstance", latin (unknownParameter name)⟩

/-- The parameters are set, and their number is compared with that of the workflow's. -/
def setInputParameters (p : WorkflowParameters) (t : Template) : Except Exception Template :=
  (setParameters xq p.parameters t 0).bind fun (t, passed) ↦
    -- `workflow_template_parameters`
    let expected := xq.evaluateInteger t (xq.transcode (ascii "count(parameters/parameter)"))
    if expected ≠ passed then
      .error ⟨"WorkflowInstance", "Invalid number of parameters passed to workflow (passed " ++
        toString passed ++ ", expected " ++ toString expected ++ ")"⟩
    else .ok t

end Template

/-- The names that the handler lets through: letters, digits and `_`. -/
def IsName (name : List UInt8) : Prop := checkName (name.map charValue) = some true

instance (name : List UInt8) : Decidable (IsName name) := inferInstanceAs (Decidable (_ = _))

/-- XPath on queries whose names hold no quotes: the first parameter with that name, and how many there are.
Names in ASCII are kept apart by every code page. -/
structure XQilla.Documented (xq : XQilla) : Prop where
  parameter : ∀ t name, IsName name →
    xq.evaluateParameter t (xq.transcode (parameterQuery name)) =
      t.parameters.findIdx? fun n ↦ n.name = some (xq.transcode name)
  count : ∀ t, xq.evaluateInteger t (xq.transcode (ascii "count(parameters/parameter)")) =
    t.parameters.length
  apart : ∀ name name', IsName name → IsName name' → xq.transcode name = xq.transcode name' → name = name'

/-! ## A processor for names in one code page -/

/-- What stands between the first `n` characters of a query and its last two. -/
def quotedName (n : Nat) (query : String) : String :=
  String.ofList ((query.toList.drop n).dropLast.dropLast)

/-- It answers the three queries of the constructor as XPath does. -/
def XQilla.plain : XQilla where
  transcode := latin
  evaluateParameter t query := t.parameters.findIdx? fun n ↦ n.name = some (quotedName 30 query)
  evaluateSchedule t query := t.schedules.findIdx? fun name ↦ name = some (quotedName 28 query)
  evaluateInteger t _ := t.parameters.length

theorem latin_injective : Function.Injective latin := by
  intro a b hab
  have hlists : (a.map fun x ↦ Char.ofNat x.toNat) = b.map fun x ↦ Char.ofNat x.toNat :=
    String.ofList_inj.mp hab
  have hchar : Function.Injective fun x : UInt8 ↦ Char.ofNat x.toNat := by
    intro x y hxy
    have hvalid : ∀ z : UInt8, (Char.ofNat z.toNat).toNat = z.toNat := by
      intro z
      have hlt := z.toNat_lt
      have hz : z.toNat.isValidChar := Or.inl (by omega)
      have hchar : Char.ofNat z.toNat = Char.ofNatAux z.toNat hz := dif_pos hz
      rw [hchar]
      rfl
    have hnat := congrArg Char.toNat hxy
    dsimp only at hnat
    rw [hvalid, hvalid] at hnat
    exact UInt8.toNat_inj.mp hnat
  exact List.map_injective_iff.mpr hchar hlists

theorem quotedName_latin (front name : List UInt8) :
    quotedName front.length (latin (front ++ name ++ ascii "']")) = latin name := by
  have hend : ascii "']" = [39, 93] := by decide
  unfold quotedName latin
  simp [hend]

theorem XQilla.plain_documented : XQilla.plain.Documented where
  parameter t name _ := by
    have hlength : (ascii "parameters/parameter[@name = '").length = 30 := by decide
    have hname := quotedName_latin (ascii "parameters/parameter[@name = '") name
    rw [hlength] at hname
    change (t.parameters.findIdx? fun n ↦ n.name = some (quotedName 30 (latin (parameterQuery name)))) =
      t.parameters.findIdx? fun n ↦ n.name = some (latin name)
    unfold parameterQuery
    rw [hname]
  count t := rfl
  apart name name' _ _ hname := latin_injective hname

/-! ## Counting -/

/-- A list without repetitions all of whose elements are in another of the same length is that other, in
another order. -/
theorem covers_iff {α : Type} {keys names : List α} (hkeys : keys.Nodup) :
    (∀ k ∈ keys, k ∈ names) ∧ names.length = keys.length ↔
      names.Nodup ∧ ∀ x, x ∈ names ↔ x ∈ keys := by
  constructor
  · rintro ⟨hsub, hlength⟩
    have hperm : keys.Perm names :=
      (List.subperm_of_subset hkeys hsub).perm_of_length_le (Nat.le_of_eq hlength)
    exact ⟨hperm.nodup_iff.mp hkeys, fun x ↦ hperm.mem_iff.symm⟩
  · rintro ⟨hnames, hmem⟩
    have hperm : names.Perm keys := (List.perm_ext_iff_of_nodup hnames hkeys).mpr hmem
    exact ⟨fun k hk ↦ (hmem k).mpr hk, hperm.length_eq⟩

namespace Template

/-- The names in document order; `none` is a parameter without the attribute. -/
def names (t : Template) : List (Option String) := t.parameters.map ParameterNode.name

theorem names_setTextContent (t : Template) (i : Nat) (text : String) :
    (t.setTextContent i text).names = t.names := by
  unfold names setTextContent
  apply List.ext_getElem?
  intro j
  rw [List.getElem?_map, List.getElem?_map, List.getElem?_modify]
  cases t.parameters[j]? with
  | none => rfl
  | some n => by_cases hij : i = j <;> simp [hij]

/-- Where the names are pairwise distinct only the node with that name gets the text. -/
theorem mem_setTextContent {t : Template} {name text : String} {i : Nat} {n : ParameterNode}
    (hnodup : t.names.Nodup) (hi : t.parameters.findIdx? (fun m ↦ m.name = some name) = some i)
    (hn : n ∈ (t.setTextContent i text).parameters) :
    (n.name = some name ∧ n.textContent = text) ∨ (n ∈ t.parameters ∧ n.name ≠ some name) := by
  obtain ⟨hlt, hname, -⟩ := List.findIdx?_eq_some_iff_getElem.mp hi
  have hname : t.parameters[i].name = some name := by simpa using hname
  obtain ⟨j, hj, hget⟩ := List.mem_iff_getElem.mp hn
  have hjt : j < t.parameters.length := by simpa [setTextContent] using hj
  have hget : n = if i = j then { t.parameters[j] with textContent := text } else t.parameters[j] := by
    rw [← hget]
    exact List.getElem_modify _ _ _ _ _
  by_cases hij : i = j
  · subst hij
    rw [if_pos rfl] at hget
    exact .inl ⟨by rw [hget, hname], by rw [hget]⟩
  · rw [if_neg hij] at hget
    refine .inr ⟨hget ▸ List.getElem_mem hjt, fun hsame ↦ hij ?_⟩
    -- Two places with one name are one place.
    have hlti : i < t.names.length := by simpa [names] using hlt
    have hltj : j < t.names.length := by simpa [names] using hjt
    have hget : t.names[i] = t.names[j] := by simp [names, hname, ← hget, hsame]
    exact hnodup.getElem_inj_iff.mp hget

/-- Looking a name up among the parameters. -/
theorem findIdx?_eq_none_iff_names (t : Template) (name : String) :
    (t.parameters.findIdx? fun n ↦ n.name = some name) = none ↔ some name ∉ t.names := by
  rw [List.findIdx?_eq_none_iff]
  simp [names]

variable {xq : XQilla}

/-- What the loop does: it stops at the first parameter that is not in the workflow, sets those that are
there, and moves no name. -/
theorem setParameters_ok_iff (hxq : xq.Documented) :
    ∀ (calls : List (List UInt8 × List UInt8)) (t : Template) (passed : Int),
      (∀ q ∈ calls, IsName q.1) →
      ((∃ r, setParameters xq calls t passed = .ok r) ↔
        ∀ q ∈ calls, some (xq.transcode q.1) ∈ t.names)
  | [], t, passed, _ => by simp [setParameters]
  | (name, value) :: rest, t, passed, hnames => by
      have hname : IsName name := hnames (name, value) (.head _)
      have hrest : ∀ q ∈ rest, IsName q.1 := fun q hq ↦ hnames q (.tail _ hq)
      rw [setParameters, hxq.parameter t name hname]
      cases hfind : t.parameters.findIdx? (fun n ↦ n.name = some (xq.transcode name)) with
      | none =>
        have habsent := (t.findIdx?_eq_none_iff_names _).mp hfind
        simp [habsent]
      | some i =>
        have hpresent : some (xq.transcode name) ∈ t.names := by
          by_contra habsent
          rw [(t.findIdx?_eq_none_iff_names _).mpr habsent] at hfind
          cases hfind
        dsimp only
        rw [setParameters_ok_iff hxq rest _ _ hrest, names_setTextContent]
        simp [hpresent]

/-- A parameter of the result was either set to a value that was supplied for its name, or it is one of the
workflow's and no value was. -/
theorem setParameters_spec (hxq : xq.Documented) :
    ∀ (calls : List (List UInt8 × List UInt8)) (t t' : Template) (passed passed' : Int),
      (∀ q ∈ calls, IsName q.1) → setParameters xq calls t passed = .ok (t', passed') →
      t'.names = t.names ∧ passed' = passed + calls.length ∧
        (t.names.Nodup → ∀ n ∈ t'.parameters,
          (∃ q ∈ calls, n.name = some (xq.transcode q.1) ∧ n.textContent = xq.transcode q.2) ∨
            (n ∈ t.parameters ∧ ∀ q ∈ calls, n.name ≠ some (xq.transcode q.1)))
  | [], t, t', passed, passed', _, hok => by
      cases hok
      simp
  | (name, value) :: rest, t, t', passed, passed', hnames, hok => by
      have hname : IsName name := hnames (name, value) (.head _)
      have hrest : ∀ q ∈ rest, IsName q.1 := fun q hq ↦ hnames q (.tail _ hq)
      rw [setParameters, hxq.parameter t name hname] at hok
      cases hfind : t.parameters.findIdx? (fun n ↦ n.name = some (xq.transcode name)) with
      | none =>
        rw [hfind] at hok
        cases hok
      | some i =>
        rw [hfind] at hok
        have hloop := setParameters_spec hxq rest _ t' _ passed' hrest hok
        rw [names_setTextContent] at hloop
        obtain ⟨hsame, hcount, hset⟩ := hloop
        refine ⟨hsame, ?_, fun hnodup n hn ↦ ?_⟩
        · rw [hcount, List.length_cons]
          omega
        · rcases hset hnodup n hn with ⟨q, hq, hvalue⟩ | ⟨hmem, hother⟩
          -- A later parameter of the list has set it.
          · exact .inl ⟨q, .tail _ hq, hvalue⟩
          · rcases mem_setTextContent hnodup hfind hmem with hvalue | ⟨hold, hne⟩
            · exact .inl ⟨(name, value), .head _, hvalue⟩
            · exact .inr ⟨hold, List.forall_mem_cons.mpr ⟨hne, hother⟩⟩

/-- Nothing but the parameters changes. -/
theorem setParameters_frame (xq : XQilla) :
    ∀ (calls : List (List UInt8 × List UInt8)) (t t' : Template) (passed passed' : Int),
      setParameters xq calls t passed = .ok (t', passed') →
      t' = { t with parameters := t'.parameters }
  | [], t, t', passed, passed', hok => by
      cases hok
      rfl
  | (name, value) :: rest, t, t', passed, passed', hok => by
      unfold setParameters at hok
      split at hok
      · have hrest := setParameters_frame xq rest _ t' _ passed' hok
        exact hrest
      · cases hok

/-- The checks in one: every name is there, and the two numbers agree. -/
theorem setInputParameters_eq_ok_iff (hxq : xq.Documented) {p : WorkflowParameters}
    (hnames : ∀ q ∈ p.parameters, IsName q.1) (t t' : Template) :
    setInputParameters xq p t = .ok t' ↔
      ∃ passed, setParameters xq p.parameters t 0 = .ok (t', passed) ∧
        t.names.length = p.parameters.length := by
  unfold setInputParameters
  cases hset : setParameters xq p.parameters t 0 with
  | error e => simp [Except.bind]
  | ok r =>
    obtain ⟨t₁, passed⟩ := r
    obtain ⟨hsame, hcount, -⟩ := setParameters_spec hxq p.parameters t t₁ 0 passed hnames hset
    have hlength : t₁.parameters.length = t.names.length := by
      rw [← hsame]
      exact (List.length_map _).symm
    simp only [Except.bind, hxq.count]
    split
    · rename_i hne
      have hne : t.names.length ≠ p.parameters.length := by omega
      simp [hne]
    · rename_i heq
      have heq : t.names.length = p.parameters.length := by omega
      simp [heq]

/-- A launch passes the checks of its parameters exactly when the names of the workflow's parameters are
pairwise distinct and are the names that were supplied; every parameter then holds the value supplied for its
name, and the rest of the document is as it was. -/
theorem setInputParameters_ok_iff (hxq : xq.Documented) (p : WorkflowParameters)
    (hnames : ∀ q ∈ p.parameters, IsName q.1) (t : Template) :
    ((∃ t', setInputParameters xq p t = .ok t') ↔
      t.names.Nodup ∧ ∀ name, name ∈ t.names ↔ name ∈ p.parameters.map fun q ↦ some (xq.transcode q.1)) ∧
    ∀ t', setInputParameters xq p t = .ok t' →
      t' = { t with parameters := t'.parameters } ∧ t'.names = t.names ∧
        ∀ n ∈ t'.parameters, ∃ q ∈ p.parameters,
          n.name = some (xq.transcode q.1) ∧ n.textContent = xq.transcode q.2 := by
  have hkeys : (p.parameters.map fun q ↦ some (xq.transcode q.1)).Nodup := by
    have hinj : ∀ a ∈ p.parameters.map Prod.fst, ∀ b ∈ p.parameters.map Prod.fst,
        some (xq.transcode a) = some (xq.transcode b) → a = b := by
      intro a ha b hb hab
      obtain ⟨q, hq, rfl⟩ := List.mem_map.mp ha
      obtain ⟨r, hr, rfl⟩ := List.mem_map.mp hb
      exact hxq.apart _ _ (hnames q hq) (hnames r hr) (Option.some.inj hab)
    have hmap := List.Nodup.map_on hinj p.unique
    rwa [List.map_map] at hmap
  have hpass : (∃ t', setInputParameters xq p t = .ok t') ↔
      t.names.Nodup ∧ ∀ name, name ∈ t.names ↔
        name ∈ p.parameters.map fun q ↦ some (xq.transcode q.1) := by
    rw [← covers_iff hkeys, List.length_map, List.forall_mem_map]
    constructor
    · rintro ⟨t', hok⟩
      obtain ⟨passed, hset, hlength⟩ := (setInputParameters_eq_ok_iff hxq hnames t t').mp hok
      exact ⟨(setParameters_ok_iff hxq p.parameters t 0 hnames).mp ⟨_, hset⟩, hlength⟩
    · rintro ⟨hall, hlength⟩
      obtain ⟨⟨t', passed⟩, hset⟩ := (setParameters_ok_iff hxq p.parameters t 0 hnames).mpr hall
      exact ⟨t', (setInputParameters_eq_ok_iff hxq hnames t t').mpr ⟨passed, hset, hlength⟩⟩
  refine ⟨hpass, fun t' hok ↦ ?_⟩
  obtain ⟨hnodup, hmem⟩ := hpass.mp ⟨t', hok⟩
  obtain ⟨passed, hset, -⟩ := (setInputParameters_eq_ok_iff hxq hnames t t').mp hok
  obtain ⟨hsame, -, hvalues⟩ := setParameters_spec hxq p.parameters t t' 0 passed hnames hset
  refine ⟨setParameters_frame xq p.parameters t t' 0 passed hset, hsame, fun n hn ↦ ?_⟩
  rcases hvalues hnodup n hn with hvalue | ⟨hold, hother⟩
  · exact hvalue
  · -- A parameter that nobody set would be one whose name was not supplied.
    have hin : n.name ∈ t.names := List.mem_map.mpr ⟨n, hold, rfl⟩
    obtain ⟨q, hq, hname⟩ := List.mem_map.mp ((hmem _).mp hin)
    exact absurd hname.symm (hother q hq)

end Template

/-- `host` and `port`, supplied in the other order. -/
def parameters_host_port : WorkflowParameters where
  parameters := [(ascii "port", ascii "80"), (ascii "host", ascii "a")]
  unique := by decide

def template_host_port : Template where
  parameters := [⟨some "host", ""⟩, ⟨some "port", ""⟩]
  retrySchedules := []
  schedules := []

theorem setInputParameters_host_port :
    ((∃ t', Template.setInputParameters .plain parameters_host_port template_host_port = .ok t') ↔
      template_host_port.names.Nodup ∧ ∀ name, name ∈ template_host_port.names ↔
        name ∈ parameters_host_port.parameters.map fun q ↦ some (XQilla.plain.transcode q.1)) ∧
    ∀ t', Template.setInputParameters .plain parameters_host_port template_host_port = .ok t' →
      t' = { template_host_port with parameters := t'.parameters } ∧
        t'.names = template_host_port.names ∧
        ∀ n ∈ t'.parameters, ∃ q ∈ parameters_host_port.parameters,
          n.name = some (XQilla.plain.transcode q.1) ∧ n.textContent = XQilla.plain.transcode q.2 :=
  Template.setInputParameters_ok_iff XQilla.plain_documented parameters_host_port
    (by decide) template_host_port

end EvQueue
