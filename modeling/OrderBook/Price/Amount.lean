import OrderBook.Decimal.Text
import OrderBook.Text.Blank

/-!
Amounts as people write them: never negative, blanks around them do not count, and an amount is
shown without trailing zeros.
-/

namespace OrderBook.Amount

def parse? (s : String) : Option Decimal :=
  (Decimal.read? (Text.trim s.toList)).filter fun d => !d.negative

def format (d : Decimal) : String := d.normalize.toText

end OrderBook.Amount
