namespace Stencil.Word

def limit : Nat := 18446744073709551616

/-- How far the numbers with a sign go below zero. -/
def depth : Nat := 9223372036854775808

end Stencil.Word
