import Rollout.Proofs.Components.Names

/-! Where the charts of components lie, by the text of their paths alone: `.` and `..` are
followed without a look at the files. A path joined to another leads where the one leads from
the end of the other, so the name of a component decides whether its chart lies below the
resource path. -/

set_option autoImplicit false

namespace Rollout

/-- Where a path leads, from the root or from wherever one is: so many steps up, then down
through the names. -/
structure Location where
  rooted : Bool
  up : Nat := 0
  names : List String := []
  deriving DecidableEq, Repr

namespace Location

/-- One step further. Nothing lies above the root. -/
def go (location : Location) (step : String) : Location :=
  if step = ".." then
    if location.names = [] then
      if location.rooted then location else { location with up := location.up + 1 }
    else { location with names := location.names.dropLast }
  else { location with names := location.names ++ [step] }

def isRooted (path : String) : Bool :=
  path.toList.head? == some '/'

def ofPath (path : String) : Location :=
  (Directory.steps path.toList []).foldl go { rooted := isRooted path }

def follow (location way : Location) : Location :=
  if way.rooted then way
  else {
    rooted := location.rooted
    up := if location.rooted then location.up
      else location.up + (way.up - location.names.length)
    names := location.names.take (location.names.length - way.up) ++ way.names }

def Below (location base : Location) : Prop :=
  ∃ more, more ≠ [] ∧ location = { base with names := base.names ++ more }

/-- What a way has to be like to lead below a base from there. From the root it has to come
through the base itself; otherwise it has to come down again on the names on which it went up,
and then go further. -/
def Enters (way base : Location) : Prop :=
  if way.rooted then way.Below base
  else (base.rooted = true ∨ way.up ≤ base.names.length) ∧
    ∃ more, more ≠ [] ∧ way.names = base.names.drop (base.names.length - way.up) ++ more

structure Inward (way : Location) : Prop where
  free : way.rooted = false
  level : way.up = 0
  some : way.names ≠ []

variable {location way base : Location} {path name : String}

@[simp] theorem go_rooted (location : Location) (step : String) :
    (location.go step).rooted = location.rooted := by
  unfold go
  split
  · split
    · split <;> rfl
    · rfl
  · rfl

@[simp] theorem foldl_go_rooted (steps : List String) (location : Location) :
    (steps.foldl go location).rooted = location.rooted := by
  induction steps generalizing location with
  | nil => rfl
  | cons step rest ih => rw [List.foldl_cons, ih, go_rooted]

@[simp] theorem ofPath_rooted (path : String) : (ofPath path).rooted = isRooted path :=
  foldl_go_rooted _ _

/-! ## Following a way step by step -/

theorem follow_start (location : Location) : location.follow { rooted := false } = location := by
  simp [follow]

-- A step up from a way that has not gone down takes a name from the location, if it has one.
theorem follow_go (free : way.rooted = false) (step : String) :
    location.follow (way.go step) = (location.follow way).go step := by
  obtain ⟨rooted, up, names⟩ := way
  subst free
  by_cases upward : step = ".."
  · subst upward
    cases names with
    | cons first rest => simp [follow, go, List.dropLast_append_of_ne_nil]
    | nil =>
      rcases Nat.lt_or_ge up location.names.length with within | beyond
      · have left : location.names.length - up ≠ 0 := by omega
        have some : location.names ≠ [] := List.ne_nil_of_length_pos (by omega)
        have same : up + 1 - location.names.length = up - location.names.length := by omega
        have shorter : location.names.length - (up + 1) =
            min (location.names.length - up) location.names.length - 1 := by omega
        simp [follow, go, left, some, same, shorter, List.dropLast_eq_take, List.take_take]
      · have none : location.names.length - up = 0 := by omega
        have still : location.names.length - (up + 1) = 0 := by omega
        have higher : up + 1 - location.names.length = up - location.names.length + 1 := by omega
        cases root : location.rooted <;> simp [follow, go, none, still, higher, root]
        omega
  · simp [follow, go, upward]

theorem follow_foldl_go (free : way.rooted = false) (steps : List String) :
    location.follow (steps.foldl go way) = steps.foldl go (location.follow way) := by
  induction steps generalizing way with
  | nil => rfl
  | cons step rest ih =>
    rw [List.foldl_cons, List.foldl_cons, ← follow_go free]
    exact ih (by rw [go_rooted, free])

theorem steps_slash (front rest step : List Char) :
    Directory.steps (front ++ '/' :: rest) step =
      Directory.steps front step ++ Directory.steps rest [] := by
  induction front generalizing step with
  | nil =>
    rw [List.nil_append, Directory.steps, Directory.steps, if_pos rfl]
    split <;> rfl
  | cons c front ih =>
    rw [List.cons_append, Directory.steps, Directory.steps]
    split
    · split <;> simp [ih]
    · exact ih _

theorem joinPath_rooted (rooted : isRooted name = true) : joinPath path name = name := by
  rw [isRooted, beq_iff_eq, List.head?_eq_some_iff] at rooted
  obtain ⟨rest, same⟩ := rooted
  rw [joinPath, same]
  rfl

theorem joinPath_relative (relative : isRooted name = false) :
    joinPath path name = match path.toList.getLast? with
      | none => name
      | some c => if c = '/' then path ++ name else path ++ "/" ++ name := by
  rw [joinPath]
  split
  · rename_i same
    rw [isRooted, same] at relative
    cases relative
  · rfl

/-- The steps of a relative path come behind those of the path that it is joined to. -/
theorem steps_joinPath (path : String) (relative : isRooted name = false) :
    Directory.steps (joinPath path name).toList [] =
        Directory.steps path.toList [] ++ Directory.steps name.toList [] ∧
      isRooted (joinPath path name) = isRooted path := by
  rw [joinPath_relative relative]
  rcases List.eq_nil_or_concat' path.toList with empty | ⟨front, c, ends⟩
  · rw [empty, List.getLast?_nil]
    exact ⟨rfl, by rw [relative, isRooted, empty]; rfl⟩
  · have last : path.toList.getLast? = some c := by rw [ends, List.getLast?_concat]
    have here : path.toList ≠ [] := by simp [ends]
    have head (rest : List Char) : (path.toList ++ rest).head? = path.toList.head? :=
      List.head?_append_of_ne_nil _ here
    rw [last]
    dsimp only
    split
    · rename_i slash
      subst slash
      rw [isRooted, String.toList_append, head]
      refine ⟨?_, rfl⟩
      rw [ends, List.append_assoc, List.singleton_append, steps_slash, steps_slash]
      simp [Directory.steps]
    · rw [isRooted, String.toList_append, String.toList_append, List.append_assoc, head]
      exact ⟨steps_slash _ _ _, rfl⟩

/-- A path joined to another leads where it leads from there. -/
theorem ofPath_joinPath (path name : String) :
    ofPath (joinPath path name) = (ofPath path).follow (ofPath name) := by
  cases rooted : isRooted name with
  | true => rw [joinPath_rooted rooted, follow, ofPath_rooted, rooted, if_pos rfl]
  | false =>
    obtain ⟨steps, same⟩ := steps_joinPath path rooted
    rw [ofPath, steps, same, List.foldl_append, ← ofPath]
    rw [ofPath.eq_def name, rooted, follow_foldl_go rfl, follow_start]

theorem follow_below_iff : (location.follow way).Below location ↔ way.Enters location := by
  unfold Enters follow
  split
  · rfl
  · have height : ((if location.rooted then location.up
        else location.up + (way.up - location.names.length)) = location.up) ↔
        (location.rooted = true ∨ way.up ≤ location.names.length) := by
      cases location.rooted <;> simp [Nat.sub_eq_zero_iff_le]
    -- both sides begin with the names that are left after the steps up
    have back (more : List String) :
        location.names.take (location.names.length - way.up) ++ way.names =
          location.names ++ more ↔
        way.names = location.names.drop (location.names.length - way.up) ++ more := by
      have whole : location.names ++ more =
          location.names.take (location.names.length - way.up) ++
            (location.names.drop (location.names.length - way.up) ++ more) := by
        rw [← List.append_assoc, List.take_append_drop]
      rw [whole, List.append_cancel_left_eq]
    simp only [Below, mk.injEq, height, back, true_and]
    constructor
    · rintro ⟨more, some, near, same⟩
      exact ⟨near, more, some, same⟩
    · rintro ⟨near, more, some, same⟩
      exact ⟨more, some, near, same⟩

theorem joinPath_below_iff :
    (ofPath (joinPath path name)).Below (ofPath path) ↔ (ofPath name).Enters (ofPath path) := by
  rw [ofPath_joinPath, follow_below_iff]

theorem Inward.enters (inward : way.Inward) (base : Location) : way.Enters base := by
  rw [Enters, inward.free, inward.level]
  exact ⟨.inr (Nat.zero_le _), way.names, inward.some, by simp⟩

-- The empty path is the one from which a way leads just where it says.
theorem inward_iff : (ofPath name).Inward ↔
    ∀ path, (ofPath (joinPath path name)).Below (ofPath path) := by
  constructor
  · exact fun inward path => joinPath_below_iff.mpr (inward.enters _)
  · intro below
    have here : ofPath "" = { rooted := false } := by decide
    obtain ⟨more, some, same⟩ := below ""
    rw [ofPath_joinPath, here] at same
    cases free : (ofPath name).rooted with
    | true =>
      rw [follow, free, if_pos rfl] at same
      rw [same] at free
      cases free
    | false =>
      simp only [follow, free, Bool.false_eq_true, if_false, mk.injEq, List.take_nil,
        List.nil_append] at same
      obtain ⟨-, level, names⟩ := same
      exact ⟨free, by simpa using level, by rwa [names]⟩

theorem steps_flat {chars : List Char} (flat : '/' ∉ chars) (step : List Char) :
    Directory.steps chars step = Directory.steps [] (step ++ chars) := by
  induction chars generalizing step with
  | nil => rw [List.append_nil]
  | cons c rest ih =>
    rw [List.mem_cons, not_or] at flat
    obtain ⟨other, flat⟩ := flat
    have onward : Directory.steps (c :: rest) step = Directory.steps rest (step ++ [c]) := by
      rw [Directory.steps, if_neg (Ne.symm other)]
    rw [onward, ih flat, List.append_assoc, List.singleton_append]

theorem isRooted_flat (flat : '/' ∉ name.toList) : isRooted name = false := by
  refine Bool.eq_false_iff.mpr fun rooted => ?_
  rw [isRooted, beq_iff_eq] at rooted
  exact flat (List.mem_of_head? rooted)

theorem ofPath_flat (flat : '/' ∉ name.toList) (filled : name ≠ "") (stays : name ≠ ".")
    (down : name ≠ "..") : ofPath name = { rooted := false, names := [name] } := by
  have filled : name.toList ≠ [] := fun empty => filled (String.toList_inj.mp empty)
  have stays : name.toList ≠ ['.'] := fun dot => stays (String.toList_inj.mp dot)
  have steps : Directory.steps name.toList [] = [name] := by
    rw [steps_flat flat, List.nil_append, Directory.steps, if_neg (by simp [filled, stays]),
      String.ofList_toList]
  rw [ofPath, steps, isRooted_flat flat, List.foldl_cons, List.foldl_nil, go, if_neg down]
  rfl

/-- A name without separators leads into the path unless it is one of the two that lead
nowhere and up. -/
theorem enters_flat_iff (flat : '/' ∉ name.toList) (filled : name ≠ "") :
    (ofPath name).Enters base ↔ name ≠ "." ∧ name ≠ ".." := by
  by_cases stays : name = "."
  · subst stays
    have here : ofPath "." = { rooted := false } := by decide
    simp [here, Enters]
  · by_cases upward : name = ".."
    · subst upward
      have above : ofPath ".." = { rooted := false, up := 1 } := by decide
      simp [above, Enters]
    · refine iff_of_true (Inward.enters ?_ base) ⟨stays, upward⟩
      rw [ofPath_flat flat filled stays upward]
      exact ⟨rfl, rfl, List.cons_ne_nil _ _⟩

end Location

namespace ComponentList

open Location

variable {list : ComponentList} {path : String} {group : Group} {reversed : Bool}
  {component : Component}

theorem mem_charted (member : component ∈ charted path (list.resolve group) reversed) :
    component.chart = joinPath path component.name ∧ component.name ∈ list.names := by
  have handed : ∃ resolved ∈ list.resolve group,
      { name := resolved.1, releaseNamespace := resolved.2, chart := joinPath path resolved.1 } =
        component := by
    rw [charted] at member
    cases reversed with
    | true => exact List.mem_map.mp (List.mem_reverse.mp member)
    | false => exact List.mem_map.mp member
  obtain ⟨resolved, there, rfl⟩ := handed
  rw [resolve, List.mem_map] at there
  obtain ⟨entry, there, rfl⟩ := there
  refine ⟨rfl, List.mem_map_of_mem ?_⟩
  cases group with
  | prerequisites => exact List.mem_append_left _ there
  | components => exact List.mem_append_right _ there

theorem filled_of_accepted (accepted : list.validate = .ok ()) {name : String}
    (member : name ∈ list.names) : name ≠ "" := by
  rintro rfl
  obtain ⟨c, there, -⟩ := (faultless_iff.mp (validate_eq_ok_iff.mp accepted)).1 "" member
  cases there

/-- The chart of a component lies below the resource path just when its name enters that path,
which an accepted name without separators does unless it is `.` or `..`. The names whose charts
lie below every path are those that only go down. -/
theorem chart_below_iff (accepted : list.validate = .ok ()) (path : String) (group : Group)
    (reversed : Bool) :
    ∀ component ∈ charted path (list.resolve group) reversed,
      ((ofPath component.chart).Below (ofPath path) ↔
        (ofPath component.name).Enters (ofPath path)) ∧
      ('/' ∉ component.name.toList → ((ofPath component.chart).Below (ofPath path) ↔
        component.name ≠ "." ∧ component.name ≠ "..")) ∧
      ((∀ other, (ofPath (joinPath other component.name)).Below (ofPath other)) ↔
        (ofPath component.name).Inward) := by
  intro component member
  obtain ⟨chart, listed⟩ := mem_charted member
  have filled := filled_of_accepted accepted listed
  rw [chart, joinPath_below_iff]
  exact ⟨.rfl, fun flat => enters_flat_iff flat filled, inward_iff.symm⟩

/-- One name that goes up and comes down again, and one that goes further up. -/
theorem chart_below_iff_returning :
    let list : ComponentList :=
      { prerequisites := [{ name := "istio/../ory" }], components := [{ name := "../charts/dex" }] }
    list.validate = .ok () ∧
    (∀ component ∈ charted "/srv/charts" (list.resolve .prerequisites) false,
      (ofPath component.chart).Below (ofPath "/srv/charts")) ∧
    ∀ component ∈ charted "/srv/charts" (list.resolve .components) true,
      (ofPath component.chart).Below (ofPath "/srv/charts") := by
  intro list
  have accepted : list.validate = .ok () := by decide +kernel
  have base : ofPath "/srv/charts" = { rooted := true, names := ["srv", "charts"] } := by
    decide +kernel
  refine ⟨accepted, fun component member => ?inside, fun component member => ?returning⟩
  case inside =>
    refine (chart_below_iff accepted _ _ _ component member).1.mpr ?_
    obtain rfl := List.mem_singleton.mp member
    have way : ofPath "istio/../ory" = { rooted := false, names := ["ory"] } := by decide +kernel
    rw [way, base]
    exact ⟨.inl rfl, ["ory"], by simp, rfl⟩
  case returning =>
    refine (chart_below_iff accepted _ _ _ component member).1.mpr ?_
    obtain rfl := List.mem_singleton.mp member
    have way : ofPath "../charts/dex" =
        { rooted := false, up := 1, names := ["charts", "dex"] } := by decide +kernel
    rw [way, base]
    exact ⟨.inl rfl, ["dex"], by simp, rfl⟩

/-- A name that starts at the root is accepted, and its chart does not lie below the path. -/
theorem chart_elsewhere :
    let list : ComponentList := { components := [{ name := "/etc/chart" }] }
    list.validate = .ok () ∧ ".." ∉ Directory.steps "/charts".toList [] ∧
    ∃ component ∈ charted "/charts" (list.resolve .components) false,
      component.chart = "/etc/chart" ∧
        ¬ (ofPath component.chart).Below (ofPath "/charts") := by
  intro list
  have handed : charted "/charts" (list.resolve .components) false =
      [{ name := "/etc/chart", releaseNamespace := "kyma-system", chart := "/etc/chart" }] := by
    decide +kernel
  rw [handed]
  refine ⟨by decide +kernel, by decide +kernel, _, List.mem_singleton_self _, rfl, ?_⟩
  rintro ⟨more, -, same⟩
  have names : (ofPath "/etc/chart").names = ["etc", "chart"] := by decide +kernel
  have base : (ofPath "/charts").names = ["charts"] := by decide +kernel
  rw [same, base] at names
  exact absurd (List.cons.inj names).1 (by decide)

end ComponentList

end Rollout
