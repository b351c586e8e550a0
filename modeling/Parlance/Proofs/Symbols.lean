import Parlance.Proofs.Comparisons
import Parlance.Proofs.Conversions
import Parlance.Proofs.Loading

/-!
# Symbols of enums

A text is looked up among the symbols of an enum without the blanks around it, and the first symbol that
answers to it counts. So a symbol without blanks around it denotes its own member where case matters, since
symbols are declared once each. Where case does not matter, in filters and in JSON, it does so unless a
symbol before it differs only in the case of letters and has another value (`symbol_denotes`).
-/

namespace Parlance

/-! ## Looking a symbol up -/

namespace EnumType

variable {e : EnumType} {before after : List (String × Int64)} {symbol : String} {value : Int64}

theorem eq_of_make? {name : String} {kind : NumericKind} {members : List (String × Int64)}
    (h : make? name kind members = .ok e) :
    e = ⟨name, kind, members⟩ ∧ (members.map Prod.fst).Nodup := by
  unfold make? at h
  split at h
  · cases h
  split at h
  · cases h
  · rename_i hdistinct
    cases h
    exact ⟨rfl, (Shape.firstRepeated?_go_eq_none.1 hdistinct).1⟩

/-- A member is found if its symbol answers, and the first symbol before it that answers has the same
value. -/
theorem valueOf?_of_first {ignoreCase : Bool} {text : String}
    (split : e.members = before ++ (symbol, value) :: after)
    (hself : answers ignoreCase (Text.trim text) symbol = true)
    (hfirst : ∀ m ∈ before.find? fun m => answers ignoreCase (Text.trim text) m.1, m.2 = value) :
    e.valueOf? ignoreCase text = some value := by
  rw [valueOf?, split, List.find?_append]
  cases hfind : before.find? fun m => answers ignoreCase (Text.trim text) m.1 with
  | none =>
    rw [Option.none_or, List.find?_cons]
    simp only [hself, Option.map_some]
  | some m => rw [Option.some_or, Option.map_some, hfirst m hfind]

/-- With the case of letters a symbol is found by itself. -/
theorem valueOf?_exact (split : e.members = before ++ (symbol, value) :: after)
    (distinct : (e.members.map Prod.fst).Nodup) (trimmed : Text.trim symbol = symbol) :
    e.valueOf? false symbol = some value := by
  apply valueOf?_of_first split
  · rw [trimmed]
    exact beq_self_eq_true symbol
  · intro m hfind
    have hname : m.1 = Text.trim symbol := by simpa [answers] using List.find?_some hfind
    rw [split, List.map_append, List.map_cons] at distinct
    have hother := (List.nodup_append.1 distinct).2.2 m.1
      (List.mem_map_of_mem (List.mem_of_find?_eq_some hfind)) symbol List.mem_cons_self
    exact absurd (hname.trans trimmed) hother

/-- Without it a symbol is found by itself if the first one before it that is like it has the same
value. -/
theorem valueOf?_ignoringCase (split : e.members = before ++ (symbol, value) :: after)
    (trimmed : Text.trim symbol = symbol)
    (hfirst : ∀ m ∈ before.find? fun m => Text.eqIgnoreCase m.1 symbol, m.2 = value) :
    e.valueOf? true symbol = some value := by
  apply valueOf?_of_first split
  · rw [trimmed]
    exact beq_self_eq_true _
  · rwa [trimmed]

end EnumType

/-! ## Symbols in JSON -/

theorem Value.ofJson_symbol {e : EnumType} {t : ValueType} (ht : t.underlying = .enum e) {text : String}
    {value : Int64} (h : e.valueOf? true text = some value) :
    Value.ofJson t (.string text) = .ok (.enum e value) := by
  have henum (whole : ValueType) : ofJsonAs whole (.enum e) (.string text) = .ok (.enum e value) := by
    apply ofJsonAs_enum
    rw [jsonEnum?, h, Option.map_some]
  rw [ofJson]
  cases t with
  | enum d =>
    cases ht
    exact henum _
  | nullable inner =>
    obtain rfl : inner = .enum e := ht
    rw [ofJsonAs_nullable]
    exact henum _
  | _ => cases ht

/-! ## Symbols in filters -/

namespace Filter

variable {e : EnumType} {op : BinaryOp} {x text : Expr} {symbol : String} {value : Int64}

/-- A closed text beside an operand of an enum is taken as a constant of that enum. -/
theorem operands_symbol (hop : op.isEquality = true) (hx : x.type.underlying = .enum e)
    (htext : text.type.underlying = .string) (closed : text.isClosed = true)
    (hsymbol : text.value [] = .ok (.string symbol)) (h : e.valueOf? true symbol = some value) :
    operands op x text =
      .ok ⟨true, x, (Expr.ofValue (.enum e value)).converted x.type⟩ := by
  have htypes : x.type ≠ text.type := by
    intro heq
    rw [heq, htext] at hx
    cases hx
  have hcommon : x.type.common? text.type = none := by
    rw [ValueType.common?, if_neg htypes, if_neg, if_neg, if_neg, hx, htext]
    · rfl
    · rw [hx, htext]
      intro hnullable
      cases hnullable
    · intro hnull
      rw [hnull] at htext
      cases htext
    · intro hnull
      rw [hnull] at hx
      cases hx
  have himplicit : Pairing.implicit x text = ⟨false, x, text⟩ := by
    rw [Pairing.implicit, if_neg htypes, hcommon]
  have hside : Pairing.enumSide? x text = some (.left e) := by
    rw [Pairing.enumSide?, ValueType.enumType?, hx, ValueType.enumType?, htext]
  have hnumber : Pairing.numberAsEnum? text x.type = none := by
    rw [Pairing.numberAsEnum?, ValueType.numericKind?, htext]
  have hconstant : text.enumConstant e x.type true =
      .ok ((Expr.ofValue (.enum e value)).converted x.type) := by
    simp only [Expr.enumConstant, closed, hsymbol, h, Bool.not_true, Bool.false_eq_true, if_false]
  have hnumbers : Pairing.enumNumber x text = ⟨false, x, text⟩ := by
    simp only [Pairing.enumNumber, if_neg htypes, hside, hnumber]
  have hstring : Pairing.enumString true x text =
      .ok ⟨true, x, (Expr.ofValue (.enum e value)).converted x.type⟩ := by
    have htyped : x.type = ((Expr.ofValue (.enum e value)).converted x.type).type :=
      (Expr.type_converted ..).symm
    simp only [Pairing.enumString, if_neg htypes, hside, htext, if_true, hconstant, Except.map,
      Pairing.implicit, if_pos htyped]
  simp only [operands, himplicit, hop, if_true, Pairing.asEnum, hnumbers, hstring,
    Bool.false_eq_true, if_false]

theorem built?_symbol (hop : op.isEquality = true) (hx : x.type.underlying = .enum e)
    (htext : text.type.underlying = .string) (closed : text.isClosed = true)
    (hsymbol : text.value [] = .ok (.string symbol)) (h : e.valueOf? true symbol = some value)
    (token : String) : ∃ constant : Expr, (∀ env, constant.value env = .ok (.enum e value)) ∧
      built? (ruleOf op) token x text = some (.binary op x constant .bool) ∧
      built? (ruleOf op) token text x = some (.binary op constant x .bool) := by
  have hcomparison : op.isComparison = true := Bool.or_eq_true_iff.2 (.inl hop)
  have hbinary : Expr.binary? op x ((Expr.ofValue (.enum e value)).converted x.type) =
      .ok (.binary op x ((Expr.ofValue (.enum e value)).converted x.type) .bool) := by
    have harithmetic : op.isArithmetic = false := by cases op <;> first | rfl | cases hop
    have hordering : op.isOrdering = false := by cases op <;> first | rfl | cases hop
    simp only [Expr.binary?, Expr.binaryType?, Expr.type_converted, harithmetic, hordering, hop, hx,
      if_true, Bool.false_eq_true, if_false]
  have hbuilt : built? (ruleOf op) token x text =
      some (.binary op x ((Expr.ofValue (.enum e value)).converted x.type) .bool) := by
    rw [built?_ruleOf hcomparison, operands_symbol hop hx htext closed hsymbol h]
    exact congrArg Except.toOption hbinary
  refine ⟨_, Expr.value_converted_enum hx value, hbuilt, ?_⟩
  have hflip := built?_flip hcomparison token x text
  rw [BinaryOp.flip_of_isEquality hop, hbuilt, Option.map_some, Expr.mirrored,
    BinaryOp.flip_of_isEquality hop] at hflip
  exact hflip

end Filter

/-- In an enum that can be declared, a symbol without blanks around it denotes its own member where case
matters. If no symbol before it is the same up to case, or the first that is has the same value, it does so
where case does not matter: a comparison for equality takes a constant text as that member, on either side,
and JSON is read as it. -/
theorem symbol_denotes {name : String} {kind : NumericKind} {members before after : List (String × Int64)}
    {e : EnumType} {symbol : String} {value : Int64} (made : EnumType.make? name kind members = .ok e)
    (place : members = before ++ (symbol, value) :: after) (trimmed : Text.trim symbol = symbol) :
    e.valueOf? false symbol = some value ∧
    ((∀ first ∈ before.find? fun m => Text.eqIgnoreCase m.1 symbol, first.2 = value) →
      e.valueOf? true symbol = some value ∧
      (∀ t : ValueType, t.underlying = .enum e →
        Value.ofJson t (.string symbol) = .ok (.enum e value) ∧
        (e.symbolOf? value = some symbol →
          Value.ofJson t (Value.enum e value).toJson = .ok (.enum e value))) ∧
      ∀ (op : BinaryOp) (token : String) (x text : Expr), op.isEquality = true →
        x.type.underlying = .enum e → text.type.underlying = .string → text.isClosed = true →
        text.value [] = .ok (.string symbol) →
          ∃ constant : Expr, (∀ env, constant.value env = .ok (.enum e value)) ∧
            Filter.built? (Filter.ruleOf op) token x text = some (.binary op x constant .bool) ∧
            Filter.built? (Filter.ruleOf op) token text x = some (.binary op constant x .bool)) := by
  obtain ⟨rfl, distinct⟩ := EnumType.eq_of_make? made
  refine ⟨EnumType.valueOf?_exact place distinct trimmed, fun hfirst => ?_⟩
  have hvalue := EnumType.valueOf?_ignoringCase (e := ⟨name, kind, members⟩) place trimmed hfirst
  refine ⟨hvalue, fun t ht => ⟨Value.ofJson_symbol ht hvalue, fun hsymbol => ?_⟩, ?_⟩
  · rw [Value.toJson, hsymbol]
    exact Value.ofJson_symbol ht hvalue
  · intro op token x text hop hx htext closed hsymbol
    exact Filter.built?_symbol hop hx htext closed hsymbol hvalue token

/-- Shades, of which two have the same letters, and one has a blank before its name. -/
def shades : EnumType := ⟨"Shade", .int, [("Red", 1), ("red", 2), ("Blue", 3), (" Green", 4)]⟩

theorem symbol_denotes_blue :
    (∀ ignoreCase, shades.valueOf? ignoreCase "Blue" = some 3) ∧
    ∃ constant : Expr, (∀ env, constant.value env = .ok (.enum shades 3)) ∧
      Filter.built? "EQ" "eq" (.parameter 0 none (.nullable (.enum shades))) (.ofValue (.string "Blue")) =
        some (.binary .equal (.parameter 0 none (.nullable (.enum shades))) constant .bool) := by
  have made : EnumType.make? "Shade" .int shades.members = .ok shades := rfl
  have place : shades.members = [("Red", 1), ("red", 2)] ++ ("Blue", 3) :: [(" Green", 4)] := rfl
  obtain ⟨hexact, hignoring⟩ := symbol_denotes made place (by decide)
  obtain ⟨hvalue, -, hcompare⟩ := hignoring (by decide)
  refine ⟨fun ignoreCase => ?_, ?_⟩
  · cases ignoreCase
    · exact hexact
    · exact hvalue
  · obtain ⟨constant, hconstant, hleft, -⟩ := hcompare .equal "eq"
      (.parameter 0 none (.nullable (.enum shades))) (.ofValue (.string "Blue")) rfl rfl rfl rfl rfl
    exact ⟨constant, hconstant, hleft⟩

/-- A symbol need not denote its own member: an earlier one with the same letters is found instead, and
one with a blank before it is not found at all. -/
theorem symbol_not_denotes :
    EnumType.make? "Shade" .int shades.members = .ok shades ∧
    ("red", 2) ∈ shades.members ∧ shades.valueOf? true "red" = some 1 ∧
    Value.ofJson (.enum shades) (Value.enum shades 2).toJson = .ok (.enum shades 1) ∧
    (" Green", 4) ∈ shades.members ∧ ∀ ignoreCase, shades.valueOf? ignoreCase " Green" = none := by
  have hred : shades.valueOf? true "red" = some 1 := by decide
  refine ⟨rfl, by decide, hred, ?_, by decide, by decide⟩
  have hjson : (Value.enum shades 2).toJson = .string "red" := rfl
  rw [hjson]
  exact Value.ofJson_symbol rfl hred

end Parlance
