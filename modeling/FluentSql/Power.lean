/-! Powers. The powers of naturals and integers are those of the core library in every module,
also where algebra, which has powers of its own, is imported. -/
namespace FluentSql

attribute [default_instance 20000] instPowNat

end FluentSql
