import Mathlib.Data.List.AList

/-!
# SQL data source configuration

`bulkerlib/implementations/sql/datasource_config.go`: `DataSourceConfig.Validate` rejects a `nil` config and gives a
`nil` `Parameters` map an empty one. So it fails only on `nil`, changes nothing of a config but a `nil` map, and a
config it has validated passes again unchanged (`validate_fills_parameters`).
-/

namespace Bulker.Sql

/-- `DataSourceConfig`; `parameters` is `none` when the map is `nil`. -/
structure DataSourceConfig where
  host : String
  port : Int
  db : String
  schema : String
  username : String
  password : String
  parameters : Option (AList (fun _ : String => String))

/-- `DataSourceConfig.Validate` on a pointer, `none` being `nil`: the config after the call, and the error. -/
def DataSourceConfig.validate : Option DataSourceConfig → Option DataSourceConfig × Option String
  | none => (none, some "Datasource config is required")
  | some dsc => (some { dsc with parameters := some (dsc.parameters.getD ∅) }, none)

/-- `Validate` fails only on `nil`; on a config it keeps every field and a non-`nil` `Parameters`, turns a `nil` one
into an empty map, and what it returns passes again unchanged. -/
theorem validate_fills_parameters (dsc : DataSourceConfig) :
    DataSourceConfig.validate none = (none, some "Datasource config is required") ∧
    ∃ dsc', DataSourceConfig.validate (some dsc) = (some dsc', none) ∧
      { dsc' with parameters := dsc.parameters } = dsc ∧
      dsc'.parameters = some (dsc.parameters.getD ∅) ∧
      DataSourceConfig.validate (some dsc') = (some dsc', none) :=
  ⟨rfl, _, rfl, rfl, rfl, by simp [DataSourceConfig.validate]⟩

end Bulker.Sql
