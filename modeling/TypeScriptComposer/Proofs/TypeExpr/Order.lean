import TypeScriptComposer.Proofs.Text.Forks
import TypeScriptComposer.Proofs.TypeExpr.Equal
import TypeScriptComposer.Proofs.TypeExpr.Pieces

/-!
# Equal types and the order of parameters

Equal types have the same pieces up to the first function type that names its parameters in another
order, and there their texts fork. So the order of the parameters, which equality does not look at,
is all that two equal types can differ in when they are printed.
-/

set_option autoImplicit false

namespace TypeScriptComposer

open Piece

namespace TypeExpr

/-- Names of parameters that stand at the same place and are different. -/
def Renamed (p q : Piece) : Prop := ∃ m n, p = .parameter m ∧ q = .parameter n ∧ m ≠ n

theorem agreeUntil_joined (separator : String) {items items' : List (List Piece)}
    (h : List.Forall₂ (AgreeUntil Renamed) items items') :
    AgreeUntil Renamed (joined separator items) (joined separator items') := by
  induction h with
  | nil => exact .refl []
  | cons hfirst hrest ih =>
    cases hrest with
    | nil => simpa using hfirst
    | cons _ _ =>
      rw [joined_cons_cons, joined_cons_cons]
      exact hfirst.append (.cons _ ih)

theorem agreeUntil_piecesOfAll (wraps : TypeExpr → Bool)
    (hwraps : ∀ {t u : TypeExpr}, t.same u = true → wraps t = wraps u) {ts us : List TypeExpr}
    (h : List.Forall₂ (fun t u => t.same u = true ∧ AgreeUntil Renamed t.pieces u.pieces) ts us) :
    List.Forall₂ (AgreeUntil Renamed) (piecesOfAll wraps ts) (piecesOfAll wraps us) := by
  induction h with
  | nil => exact .nil
  | cons hfirst _ ih =>
    obtain ⟨hsame, hpieces⟩ := hfirst
    refine .cons ?_ ih
    rw [wrappedIf, wrappedIf, hwraps hsame]
    split
    · exact .cons _ (hpieces.append (.refl _))
    · exact hpieces

theorem agreeUntil_piecesOfMembers {ms ns : List Member}
    (h : List.Forall₂ (fun m n => m.name = n.name ∧ m.optional = n.optional ∧
      AgreeUntil Renamed m.type.pieces n.type.pieces) ms ns) :
    List.Forall₂ (AgreeUntil Renamed) (piecesOfMembers ms) (piecesOfMembers ns) := by
  induction h with
  | nil => exact .nil
  | @cons m n ms ns hfirst _ ih =>
    obtain ⟨member, type, optional⟩ := m
    obtain ⟨member', type', optional'⟩ := n
    obtain ⟨rfl, rfl, hpieces⟩ := hfirst
    exact .cons (.cons _ hpieces) ih

/-- As many parameters on both sides, such that those with the same name have types whose pieces
agree: at the first place where the names are different, the pieces are. -/
theorem agreeUntil_piecesOfParameters (separator : String) {ps qs : List (String × TypeExpr)}
    (hlength : ps.length = qs.length)
    (h : ∀ p ∈ ps, ∀ q ∈ qs, p.1 = q.1 → AgreeUntil Renamed p.2.pieces q.2.pieces) :
    AgreeUntil Renamed (joined separator (piecesOfParameters ps))
      (joined separator (piecesOfParameters qs)) := by
  induction ps generalizing qs with
  | nil =>
    cases qs with
    | nil => exact .refl _
    | cons q qs => simp at hlength
  | cons p ps ih =>
    cases qs with
    | nil => simp at hlength
    | cons q qs =>
      have hrest := ih (by simpa using hlength) fun p' hp q' hq =>
        h p' (List.mem_cons_of_mem _ hp) q' (List.mem_cons_of_mem _ hq)
      obtain ⟨m, t⟩ := p
      obtain ⟨n, u⟩ := q
      by_cases hname : m = n
      · subst hname
        have hfirst := AgreeUntil.cons (Piece.parameter m)
          (h _ List.mem_cons_self _ List.mem_cons_self rfl)
        cases ps with
        | nil =>
          cases qs with
          | nil => simpa [piecesOfParameters] using hfirst
          | cons q' qs => simp at hlength
        | cons p' ps =>
          cases qs with
          | nil => simp at hlength
          | cons q' qs =>
            rw [piecesOfParameters, piecesOfParameters, piecesOfParameters, piecesOfParameters,
              joined_cons_cons, joined_cons_cons]
            rw [piecesOfParameters, piecesOfParameters] at hrest
            exact hfirst.append (.cons _ hrest)
      · have hfork (items items' : List (List Piece)) : AgreeUntil Renamed
            (joined separator ((.parameter m :: t.pieces) :: items))
            (joined separator ((.parameter n :: u.pieces) :: items')) := by
          cases items <;> cases items' <;> simp only [joined_singleton, joined_cons_cons] <;>
            exact .fork _ _ ⟨m, n, rfl, rfl, hname⟩
        exact hfork _ _

/-- The pieces of equal types agree up to the name of a parameter. -/
theorem agreeUntil_pieces {t u : TypeExpr} (h : t.same u = true) (ht : t.isKeyed = true)
    (hu : u.isKeyed = true) : AgreeUntil Renamed t.pieces u.pieces := by
  refine sameInduction (P := fun t u => AgreeUntil Renamed t.pieces u.pieces)
    ?named ?applied ?typeVar ?object ?tuple ?intersection ?union ?function t u h ht hu
  case named => exact fun usage s => .refl _
  case typeVar =>
    intro name bounds bounds'
    rw [pieces, pieces]
    exact .refl _
  case applied =>
    intro base base' arguments arguments' hbase hargs
    have hpieces := agreeUntil_piecesOfAll (fun _ => false) (fun _ => rfl) hargs
    rw [pieces, pieces, isEmpty_of_forall₂ hargs]
    split
    · exact hbase
    · rw [List.append_assoc, List.append_assoc]
      exact hbase.append (.cons _ ((agreeUntil_joined ", " hpieces).append (.refl _)))
  case object =>
    intro members members' hmembers
    have hpieces := agreeUntil_joined ", " (agreeUntil_piecesOfMembers hmembers)
    rw [pieces, pieces, isEmpty_of_forall₂ hmembers]
    split
    · exact .refl _
    · exact .cons _ (hpieces.append (.refl _))
  case tuple =>
    intro members members' hmembers
    have hpieces := agreeUntil_piecesOfAll (fun _ => false) (fun _ => rfl) hmembers
    rw [pieces, pieces]
    exact .cons _ ((agreeUntil_joined ", " hpieces).append (.refl _))
  case intersection =>
    intro members members' hmembers
    rw [pieces, pieces, isEmpty_of_forall₂ hmembers]
    split
    · exact .refl _
    · exact agreeUntil_joined " & " (agreeUntil_piecesOfAll _ loosens_of_same hmembers)
  case union =>
    intro members members' hmembers
    rw [pieces, pieces, isEmpty_of_forall₂ hmembers]
    split
    · exact .refl _
    · exact agreeUntil_joined " | " (agreeUntil_piecesOfAll _ isFunction_of_same hmembers)
  case function =>
    intro parameters parameters' returns returns' hlength _ htypes hreturns
    rw [pieces, pieces]
    exact .cons _ ((agreeUntil_piecesOfParameters ", " hlength htypes).append (.cons _ hreturns))

theorem mem_symbolsOfAll_iff_of_forall₂ {s : Symbol} {ts us : List TypeExpr}
    (h : List.Forall₂ (fun t u => t.same u = true ∧ (s ∈ t.symbols ↔ s ∈ u.symbols)) ts us) :
    s ∈ symbolsOfAll ts ↔ s ∈ symbolsOfAll us := by
  induction h with
  | nil => rfl
  | cons hfirst _ ih =>
    rw [symbolsOfAll, symbolsOfAll, List.mem_append, List.mem_append, hfirst.2, ih]

theorem mem_symbolsOfMembers_iff_of_forall₂ {s : Symbol} {ms ns : List Member}
    (h : List.Forall₂ (fun m n => m.name = n.name ∧ m.optional = n.optional ∧
      (s ∈ m.type.symbols ↔ s ∈ n.type.symbols)) ms ns) :
    s ∈ symbolsOfMembers ms ↔ s ∈ symbolsOfMembers ns := by
  induction h with
  | nil => rfl
  | @cons m n ms ns hfirst _ ih =>
    obtain ⟨member, type, optional⟩ := m
    obtain ⟨member', type', optional'⟩ := n
    rw [symbolsOfMembers, symbolsOfMembers, List.mem_append, List.mem_append, hfirst.2.2, ih]

theorem mem_symbolsOfParameters (ps : List (String × TypeExpr)) (s : Symbol) :
    s ∈ symbolsOfParameters ps ↔ ∃ p ∈ ps, s ∈ p.2.symbols := by
  induction ps with
  | nil => simp [symbolsOfParameters]
  | cons p ps ih => simp [symbolsOfParameters, ih]

/-- Equal types use the same symbols, in whatever order. -/
theorem mem_symbols_iff_of_same {t u : TypeExpr} (h : t.same u = true) (ht : t.isKeyed = true)
    (hu : u.isKeyed = true) (s : Symbol) : s ∈ t.symbols ↔ s ∈ u.symbols := by
  refine sameInduction (P := fun t u => s ∈ t.symbols ↔ s ∈ u.symbols)
    ?named ?applied ?typeVar ?object ?tuple ?intersection ?union ?function t u h ht hu
  case named => exact fun usage s => Iff.rfl
  case typeVar => exact fun name bounds bounds' => by rw [symbols, symbols]
  case applied =>
    intro base base' arguments arguments' hbase hargs
    rw [symbols, symbols, List.mem_append, List.mem_append, hbase,
      mem_symbolsOfAll_iff_of_forall₂ hargs]
  case object => exact fun hmembers => mem_symbolsOfMembers_iff_of_forall₂ hmembers
  case tuple => exact fun hmembers => mem_symbolsOfAll_iff_of_forall₂ hmembers
  case intersection => exact fun hmembers => mem_symbolsOfAll_iff_of_forall₂ hmembers
  case union => exact fun hmembers => mem_symbolsOfAll_iff_of_forall₂ hmembers
  case function =>
    intro parameters parameters' returns returns' _ hnames htypes hreturns
    have hparameters :
        s ∈ symbolsOfParameters parameters ↔ s ∈ symbolsOfParameters parameters' := by
      rw [mem_symbolsOfParameters, mem_symbolsOfParameters]
      constructor
      · rintro ⟨p, hp, hs⟩
        obtain ⟨q, hq, hname⟩ := List.mem_map.mp ((hnames p.1).mp (List.mem_map_of_mem hp))
        exact ⟨q, hq, (htypes p hp q hq hname.symm).mp hs⟩
      · rintro ⟨q, hq, hs⟩
        obtain ⟨p, hp, hname⟩ := List.mem_map.mp ((hnames q.1).mpr (List.mem_map_of_mem hq))
        exact ⟨p, hp, (htypes p hp q hq hname).mpr hs⟩
    rw [symbols, symbols, List.mem_append, List.mem_append, hparameters, hreturns]

/-- No name has a colon in it, so that a name ends where a colon follows it. -/
def WithoutColons (names : List String) : Prop := ∀ name ∈ names, ':' ∉ name.toList

section
variable {t u : TypeExpr}

theorem symbols_of_pieces_eq (h : t.pieces = u.pieces) : t.symbols = u.symbols := by
  rw [symbols_eq_pieces, symbols_eq_pieces, h]

theorem print_of_pieces_eq (h : t.pieces = u.pieces) (tracker : Tracker) :
    t.print tracker = u.print tracker := by
  rw [print_eq_pieces, print_eq_pieces, h]

theorem forks_parameterNames (h : Forks Renamed t.pieces u.pieces) :
    Forks (· ≠ ·) t.parameterNames u.parameterNames := by
  obtain ⟨front, _, rest, _, rest', ⟨m, n, rfl, rfl, hmn⟩, hpieces, hpieces'⟩ := h
  rw [parameterNames, parameterNames, hpieces, hpieces', List.flatMap_append, List.flatMap_append]
  exact Forks.prepend ⟨[], m, _, n, _, hmn, rfl, rfl⟩ _

/-- The uses in front of a place are spelled the same whatever the symbols behind it are. -/
theorem spell_front (tracker : Tracker) (front rest rest' : List Piece) :
    front.flatMap (Piece.spell (tracker.registerAll
        ((front ++ rest).flatMap Piece.symbols)).nameOf) =
      front.flatMap (Piece.spell (tracker.registerAll
        ((front ++ rest').flatMap Piece.symbols)).nameOf) := by
  apply List.flatMap_congr
  intro p hp
  cases p with
  | use usage s =>
    obtain ⟨before, after, rfl⟩ := List.append_of_mem hp
    have hname (more : List Piece) : (tracker.registerAll
        ((before ++ .use usage s :: after ++ more).flatMap Piece.symbols)).nameOf s =
        ((tracker.registerAll (before.flatMap Piece.symbols)).register s).1 := by
      rw [List.append_assoc, List.flatMap_append, Tracker.registerAll_append]
      exact Tracker.nameOf_registerAll _ s _
    rw [Piece.spell, Piece.spell, hname, hname]
  | _ => rfl

theorem forks_print (h : Forks Renamed t.pieces u.pieces)
    (hnames : WithoutColons (t.parameterNames ++ u.parameterNames)) (tracker : Tracker) :
    Forks (· ≠ ·) (t.print tracker).1.toList (u.print tracker).1.toList := by
  obtain ⟨front, _, rest, _, rest', ⟨m, n, rfl, rfl, hmn⟩, hpieces, hpieces'⟩ := h
  have hm : ':' ∉ m.toList :=
    hnames m (List.mem_append_left _ (by simp [parameterNames, hpieces, Piece.parameters]))
  have hn : ':' ∉ n.toList :=
    hnames n (List.mem_append_right _ (by simp [parameterNames, hpieces', Piece.parameters]))
  have hne : m.toList ≠ n.toList := fun heq => hmn (String.toList_inj.mp heq)
  have hsplit (name : Symbol → String) (p : String) (more : List Piece) :
      (front ++ .parameter p :: more).flatMap (Piece.spell name) =
        front.flatMap (Piece.spell name) ++
          (p.toList ++ ':' :: ' ' :: more.flatMap (Piece.spell name)) := by
    simp [Piece.spell]
  rw [print_eq_pieces, print_eq_pieces, hpieces, hpieces', String.toList_ofList,
    String.toList_ofList, hsplit, hsplit,
    spell_front tracker front (.parameter m :: rest) (.parameter n :: rest')]
  exact (Forks.of_ne hm hn hne _ _).prepend _

/-- Two equal types print the same, and leave the same tracker, when they name the parameters of
their function types in the same order. When they do not, they print different texts, unless a
colon stands in a name. -/
theorem print_of_same (h : t.same u = true) (ht : t.isKeyed = true) (hu : u.isKeyed = true)
    (tracker : Tracker) :
    (t.parameterNames = u.parameterNames → t.print tracker = u.print tracker) ∧
    (t.parameterNames ≠ u.parameterNames → WithoutColons (t.parameterNames ++ u.parameterNames) →
      (t.print tracker).1 ≠ (u.print tracker).1) := by
  rcases (agreeUntil_pieces h ht hu).eq_or_forks with hpieces | hforks
  · exact ⟨fun _ => print_of_pieces_eq hpieces tracker,
      fun hne => absurd (congrArg (List.flatMap Piece.parameters) hpieces) hne⟩
  · refine ⟨fun heq => absurd heq (forks_parameterNames hforks).ne, fun _ hnames heq => ?_⟩
    exact (forks_print hforks hnames tracker).ne (congrArg String.toList heq)

end

end TypeExpr

end TypeScriptComposer
