/-! Powers of numbers are those of the core library, also where an algebra library is
at hand that declares its own. -/

attribute [instance(2000)] instPowNat
attribute [default_instance 20000] instPowNat
