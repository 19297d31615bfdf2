import SqlCompose.Value.Basic

/-! Values made from other types. -/
namespace SqlCompose

class ToValue (Source : Type) where
  toValue : Source → Value

export ToValue (toValue)

instance : ToValue Bool := ⟨.bool⟩
instance : ToValue Int8 := ⟨fun number => .int number.toInt64⟩
instance : ToValue Int16 := ⟨fun number => .int number.toInt64⟩
instance : ToValue Int32 := ⟨fun number => .int number.toInt64⟩
instance : ToValue Int64 := ⟨.int⟩
instance : ToValue UInt8 := ⟨fun number => .int (Int64.ofNat number.toNat)⟩
instance : ToValue UInt16 := ⟨fun number => .int (Int64.ofNat number.toNat)⟩
instance : ToValue UInt32 := ⟨fun number => .int (Int64.ofNat number.toNat)⟩
instance : ToValue Number.Binary64 := ⟨.float⟩
instance : ToValue Number.Binary32 := ⟨fun number => .float number.widen⟩
instance : ToValue String := ⟨.text⟩
instance : ToValue (List UInt8) := ⟨.bytes⟩
instance : ToValue Json := ⟨.json⟩
instance : ToValue Uuid := ⟨.uuid⟩
instance : ToValue Time.Timestamp := ⟨.timestamp⟩
instance : ToValue Value := ⟨id⟩

instance {Source : Type} [ToValue Source] : ToValue (Option Source) :=
  ⟨fun
    | some source => toValue source
    | none => .null⟩

end SqlCompose
